import AgentsRemember.Active.ReplaySound

/-!
# Upserts that are repeated

An item that is applied again changes nothing, if what waited for it outlasts
the repeat, and a later upsert keeps what the stored item has settled. The text
of a block is what its deltas say, whether they came before their item or after.
-/

namespace AgentsRemember.Active

open Lib

variable {β : Type}

/-! ## Flushing by a rule -/

def ConversationItem.received (item : ConversationItem β) (blockId delta : String) : ConversationItem β :=
  if item.hasBlock blockId then item.withDelta blockId delta else item.mintBlockWithText blockId delta

def ConversationContentBlock.takesText (block : ConversationContentBlock β) : Bool :=
  match block.body with
  | .markdown _ | .text _ | .thinking _ | .toolOutput .. => true
  | _ => false

variable {item : ConversationItem β}

theorem hasBlock_eq_false {id : String} :
    item.hasBlock id = false ↔ ∀ block ∈ item.blocks, block.blockId ≠ id := by
  simp [ConversationItem.hasBlock]

@[simp] theorem received_itemId (item : ConversationItem β) (blockId delta : String) :
    (item.received blockId delta).itemId = item.itemId := by
  unfold ConversationItem.received
  split <;> rfl

@[simp] theorem received_kind (item : ConversationItem β) (blockId delta : String) :
    (item.received blockId delta).kind = item.kind := by
  unfold ConversationItem.received
  split <;> rfl

variable {block : ConversationContentBlock β} {blockId delta : String}

/-- A block of the item after a delta: one of another id, the delta's own with its text, or the one that it mints. -/
theorem mem_received
    (h : block ∈ (item.received blockId delta).blocks) :
    block ∈ item.blocks ∧ block.blockId ≠ blockId ∨
      (∃ old ∈ item.blocks, old.blockId = blockId ∧ block = appendText old delta) ∨
      (∀ old ∈ item.blocks, old.blockId ≠ blockId) ∧ block.blockId = blockId ∧ block.takesText = true ∧
        blockContentText block = delta := by
  by_cases hhas : item.hasBlock blockId = true
  · rw [ConversationItem.received, if_pos hhas] at h
    obtain ⟨old, hold, rfl⟩ := List.mem_map.mp h
    by_cases hid : old.blockId = blockId
    · rw [if_neg (not_not_intro hid)]
      exact .inr (.inl ⟨old, hold, hid, rfl⟩)
    · rw [if_pos hid]
      exact .inl ⟨hold, hid⟩
  rw [ConversationItem.received, if_neg hhas] at h
  have hnone := hasBlock_eq_false.mp (Bool.eq_false_iff.mpr hhas)
  rcases List.mem_append.mp h with h | h
  · exact .inl ⟨h, hnone block h⟩
  obtain rfl := List.mem_singleton.mp h
  refine .inr (.inr ⟨hnone, rfl, ?_⟩)
  cases item.kind <;> exact ⟨rfl, rfl⟩

theorem received_keeps
    (h : block ∈ item.blocks) (hid : block.blockId ≠ blockId) : block ∈ (item.received blockId delta).blocks := by
  unfold ConversationItem.received
  split
  · exact List.mem_map.mpr ⟨block, h, if_pos hid⟩
  · exact List.mem_append_left _ h

theorem received_block (item : ConversationItem β) (blockId delta : String) :
    ∃ block ∈ (item.received blockId delta).blocks, block.blockId = blockId := by
  by_cases hhas : item.hasBlock blockId = true
  · rw [ConversationItem.received, if_pos hhas]
    obtain ⟨old, hold, hid⟩ := List.any_eq_true.mp hhas
    have hid : old.blockId = blockId := by simpa using hid
    refine ⟨_, List.mem_map.mpr ⟨old, hold, rfl⟩, ?_⟩
    rw [if_neg (not_not_intro hid), appendText_blockId, hid]
  · rw [ConversationItem.received, if_neg hhas]
    exact ⟨_, List.mem_append_right _ (List.mem_singleton_self _), rfl⟩

theorem extend_store (s : ProjectionStore β) (item : ConversationItem β) (blockId delta : String) :
    (s.extend item blockId delta).1 = s.setItem (item.received blockId delta) := by
  unfold ProjectionStore.extend ConversationItem.received
  split <;> rfl

structure Flushed (id : String) (s s' : ProjectionStore β) : Prop where
  others : ∀ other, other ≠ id → s'.items.get? other = s.items.get? other
  pendingDeltas : s'.pendingDeltas = s.pendingDeltas

section
variable {authoritative : List String} {P : List MappedBlockDelta → ConversationItem β → Prop}

theorem flushLoop_rule
    (hskip : ∀ delta rest item, P (delta :: rest) item → delta.target item ∈ authoritative → P rest item)
    (htake : ∀ delta rest item, P (delta :: rest) item → delta.target item ∉ authoritative →
      P rest (item.received (delta.target item) delta.delta)) :
    ∀ (deltas : List MappedBlockDelta) (s : ProjectionStore β) {current : ConversationItem β},
      s.items.get? current.itemId = some current → P deltas current →
      ∃ s' ms item, ProjectionStore.flushLoop current.itemId authoritative deltas s = some (s', ms) ∧
        s'.items.get? current.itemId = some item ∧ P [] item ∧ Flushed current.itemId s s' := by
  intro deltas
  induction deltas with
  | nil =>
    intro s current hget hP
    exact ⟨s, [], current, rfl, hget, hP, fun _ _ => rfl, rfl⟩
  | cons delta rest ih =>
    intro s current hget hP
    rw [ProjectionStore.flushLoop, hget, Option.bind_some]
    by_cases hauth : delta.target current ∈ authoritative
    · rw [if_pos hauth]
      exact ih s hget (hskip _ _ _ hP hauth)
    rw [if_neg hauth]
    dsimp only
    rw [extend_store]
    let next := current.received (delta.target current) delta.delta
    have hid : next.itemId = current.itemId := received_itemId _ _ _
    obtain ⟨s', ms, item, hloop, hitem, hP', hflushed⟩ := ih (s.setItem next) (Dict.get?_set_self ..) (htake _ _ _ hP hauth)
    rw [hid] at hloop hitem hflushed
    refine ⟨s', _, item, Option.map_eq_some_iff.mpr ⟨_, hloop, rfl⟩, hitem, hP', fun other hne => ?_, hflushed.pendingDeltas⟩
    rw [hflushed.others other hne]
    exact Dict.get?_set_ne _ _ (hid ▸ hne.symm)

theorem flush_rule {s : ProjectionStore β} {item : ConversationItem β}
    (hskip : ∀ delta rest item, P (delta :: rest) item → delta.target item ∈ authoritative → P rest item)
    (htake : ∀ delta rest item, P (delta :: rest) item → delta.target item ∉ authoritative →
      P rest (item.received (delta.target item) delta.delta))
    (hget : s.items.get? item.itemId = some item) (hP : P ((s.pendingDeltas.get? item.itemId).getD []) item) :
    ∃ s' ms item', s.flushPendingDeltas item.itemId authoritative = some (s', ms) ∧
      s'.items.get? item.itemId = some item' ∧ P [] item' ∧
      (∀ other, other ≠ item.itemId → s'.items.get? other = s.items.get? other) ∧
      s'.pendingDeltas.get? item.itemId = none := by
  unfold ProjectionStore.flushPendingDeltas
  cases hpending : s.pendingDeltas.get? item.itemId with
  | none =>
    rw [hpending] at hP
    exact ⟨s, [], item, rfl, hget, hP, fun _ _ => rfl, hpending⟩
  | some deltas =>
    rw [hpending] at hP
    obtain ⟨s', ms, item', hloop, hitem, hP', hflushed⟩ := flushLoop_rule hskip htake deltas
      { s with pendingDeltas := s.pendingDeltas.erase item.itemId } hget hP
    refine ⟨s', ms, item', hloop, hitem, hP', hflushed.others, ?_⟩
    rw [hflushed.pendingDeltas, Dict.get?_erase, if_pos rfl]

variable [BEq β] {s : ProjectionStore β} {candidate : ConversationItem β}

/-- **Arrival rule.** What holds of the arriving item with what waits for it, and of every flushed delta's result. -/
theorem arrival_rule {P : List MappedBlockDelta → ConversationItem β → Prop}
    (hskip : ∀ delta rest item, P (delta :: rest) item → delta.target item ∈ authoritativeBlockIds candidate → P rest item)
    (htake : ∀ delta rest item, P (delta :: rest) item → delta.target item ∉ authoritativeBlockIds candidate →
      P rest (item.received (delta.target item) delta.delta))
    (hnew : s.items.get? candidate.itemId = none)
    (hP : P ((s.pendingDeltas.get? candidate.itemId).getD []) (s.arrived candidate)) :
    ∃ s' ms item, s.applyItem candidate = some (s', ms) ∧ s'.items.get? candidate.itemId = some item ∧ P [] item ∧
      (∀ other, other ≠ candidate.itemId → s'.items.get? other = s.items.get? other) ∧
      s'.pendingDeltas.get? candidate.itemId = none := by
  let item := s.arrived candidate
  let entered := ({ s.setItem item with order := s.order ++ [item.itemId] }).trackProvenance item
  have hitems : entered.items = s.items.set item.itemId item := congrArg Timeline.items (trackProvenance_timeline _ _)
  have hpending : entered.pendingDeltas = s.pendingDeltas := trackProvenance_pendingDeltas _ _
  have hget : entered.items.get? item.itemId = some item := by
    rw [hitems]
    exact Dict.get?_set_self ..
  obtain ⟨s', ms, item', hflush, hitem, hP', hothers, hnone⟩ := flush_rule hskip htake hget (hpending ▸ hP)
  refine ⟨s', .appendItem item :: ms, item', ?_, hitem, hP', fun other hne => ?_, hnone⟩
  · simp only [ProjectionStore.applyItem, hnew]
    exact Option.map_eq_some_iff.mpr ⟨_, hflush, rfl⟩
  · rw [hothers other hne, hitems]
    exact Dict.get?_set_ne _ _ hne.symm

end

/-! ## Unions -/

def setBlocks (d : Dict String (ConversationContentBlock β)) (blocks : List (ConversationContentBlock β)) :
    Dict String (ConversationContentBlock β) :=
  blocks.foldl (fun merged block => merged.set block.blockId block) d

theorem get?_setBlocks (d : Dict String (ConversationContentBlock β)) (id : String) (blocks : List (ConversationContentBlock β)) :
    (setBlocks d blocks).get? id = (blocks.reverse.find? fun block => block.blockId = id).or (d.get? id) := by
  induction blocks using List.reverseRecOn with
  | nil => rfl
  | append_singleton blocks block ih =>
    rw [setBlocks, List.foldl_append, List.foldl_cons, List.foldl_nil, ← setBlocks, Dict.get?_set, ih, List.reverse_append,
      List.reverse_singleton, List.singleton_append]
    by_cases hid : block.blockId = id
    · rw [if_pos hid, List.find?_cons_of_pos (by simpa using hid)]
      rfl
    · rw [if_neg hid, List.find?_cons_of_neg (by simpa using hid)]

variable {blocks : List (ConversationContentBlock β)} {d : Dict String (ConversationContentBlock β)} {id : String}
  {block : ConversationContentBlock β} {existing candidate again item : ConversationItem β}

theorem keys_setBlocks : ∀ {d : Dict String (ConversationContentBlock β)},
    (∀ block ∈ blocks, block.blockId ∈ d.keys) → (setBlocks d blocks).keys = d.keys := by
  induction blocks with
  | nil =>
    intro d _
    rfl
  | cons block rest ih =>
    intro d h
    obtain ⟨old, hold⟩ := Dict.mem_keys.mp (h block (by simp))
    have hkeys : (d.set block.blockId block).keys = d.keys := Dict.keys_set_of_some hold
    rw [setBlocks, List.foldl_cons, ← setBlocks, ih fun b hb => hkeys ▸ h b (List.mem_cons_of_mem _ hb), hkeys]

theorem values_setBlocks
    (h : ∀ id block, (blocks.reverse.find? fun b => b.blockId = id) = some block → d.get? id = some block) :
    (setBlocks d blocks).values = d.values := by
  have hget : (setBlocks d blocks).get? = d.get? := by
    funext id
    rw [get?_setBlocks]
    cases hfind : blocks.reverse.find? fun block => block.blockId = id with
    | none => rfl
    | some block => rw [h id block hfind, Option.some_or]
  have hkeys : (setBlocks d blocks).keys = d.keys := by
    apply keys_setBlocks
    intro block hmem
    cases hfind : blocks.reverse.find? fun b => b.blockId = block.blockId with
    | none => simpa using List.find?_eq_none.mp hfind block (List.mem_reverse.mpr hmem)
    | some found => exact Dict.mem_keys.mpr ⟨found, h _ _ hfind⟩
  have hvalues := (setBlocks d blocks).mapM_get?_keys
  rw [hget, hkeys, Dict.mapM_get?_keys] at hvalues
  exact (Option.some.inj hvalues).symm

theorem setBlocks_values (h : ∀ id block, d.get? id = some block → block.blockId = id) :
    setBlocks Dict.empty d.values = d := by
  have hentries : d.values.map (fun block => (block.blockId, block)) = d.entries := by
    rw [Dict.values, List.map_map]
    refine (List.map_congr_left fun e he => ?_).trans (List.map_id d.entries)
    exact Prod.ext (h e.1 e.2 (Dict.get?_eq_some.mpr he)) rfl
  have hfold : (setBlocks Dict.empty d.values).entries = d.entries := by
    have hset := Dict.entries_ofEntries (l := d.values.map fun block => (block.blockId, block)) (by rw [hentries]; exact d.nodup)
    rw [Dict.ofEntries, List.foldl_map] at hset
    exact hset.trans hentries
  exact Dict.ext hfold

theorem unionBlocks_eq (existing candidate : List (ConversationContentBlock β)) :
    unionBlocks existing candidate = (setBlocks (setBlocks Dict.empty existing) candidate).values := by
  rw [unionBlocks, List.foldl_append]
  rfl

theorem blockId_of_setBlocks (h : (setBlocks Dict.empty blocks).get? id = some block) :
    block ∈ blocks ∧ block.blockId = id := by
  rw [get?_setBlocks, Dict.get?_empty, Option.or_none] at h
  exact ⟨List.mem_reverse.mp (List.mem_of_find?_eq_some h), by simpa using List.find?_some h⟩

theorem unionBlocks_again (existing candidate : List (ConversationContentBlock β)) :
    unionBlocks (unionBlocks existing candidate) candidate = unionBlocks existing candidate := by
  have hunion : setBlocks (setBlocks Dict.empty existing) candidate = setBlocks Dict.empty (existing ++ candidate) := by
    rw [setBlocks, setBlocks, setBlocks, List.foldl_append]
  rw [unionBlocks_eq, unionBlocks_eq, hunion, setBlocks_values fun id block h => (blockId_of_setBlocks h).2]
  apply values_setBlocks
  intro id block hfind
  rw [get?_setBlocks, List.reverse_append, List.find?_append, hfind]
  rfl

theorem unionBlocks_of_subset {existing candidate : List (ConversationContentBlock β)} (hn : (existing.map (·.blockId)).Nodup)
    (h : ∀ block ∈ candidate, block ∈ existing) : unionBlocks existing candidate = existing := by
  have hentries : (setBlocks Dict.empty existing).entries = existing.map fun block => (block.blockId, block) := by
    have hset := Dict.entries_ofEntries (l := existing.map fun block => (block.blockId, block))
      (by simpa [List.map_map, Function.comp_def] using hn)
    rwa [Dict.ofEntries, List.foldl_map] at hset
  rw [unionBlocks_eq, values_setBlocks]
  · rw [Dict.values, hentries, List.map_map]
    exact List.map_id existing
  intro id block hfind
  have hid : block.blockId = id := by simpa using List.find?_some hfind
  rw [Dict.get?_eq_some, hentries]
  exact List.mem_map.mpr ⟨block, h block (List.mem_reverse.mp (List.mem_of_find?_eq_some hfind)), by rw [hid]⟩

/-! ## Merges -/

theorem reconcileRosterUpsert_eq (existing candidate : ConversationItem β) :
    reconcileRosterUpsert existing candidate =
      { candidate with
        agent := (reconcileRosterUpsert existing candidate).agent
        phase := (reconcileRosterUpsert existing candidate).phase } := by
  unfold reconcileRosterUpsert
  split
  · split <;> rfl
  · rfl

theorem reconcileRosterUpsert_other {existing candidate : ConversationItem β} (h : existing.kind ≠ .notice ∨ candidate.kind ≠ .notice) :
    reconcileRosterUpsert existing candidate = candidate := by
  unfold reconcileRosterUpsert
  split
  · exact if_neg fun hc => h.elim (fun h => h hc.1.1) fun h => h hc.1.2
  · rfl

theorem mergeCandidate_eq (existing candidate : ConversationItem β) :
    mergeCandidate existing candidate =
      { candidate with
        agent := (reconcileRosterUpsert existing candidate).agent
        phase :=
          if existing.kind = .toolCall ∧ candidate.kind = .toolCall ∧ candidate.phase = .streaming ∧ existing.phase.terminal then
            existing.phase
          else (reconcileRosterUpsert existing candidate).phase
        blocks :=
          if existing.kind = .toolCall ∧ candidate.kind = .toolCall then unionBlocks existing.blocks candidate.blocks
          else if (existing.kind = .notice ∧ candidate.kind = .notice) ∧ ¬ candidate.hasBlock "final-message" then
            candidate.blocks ++ existing.blocks.filter fun block => block.blockId == "final-message"
          else candidate.blocks } := by
  by_cases htool : existing.kind = .toolCall ∧ candidate.kind = .toolCall
  · have hnone : reconcileRosterUpsert existing candidate = candidate := reconcileRosterUpsert_other (.inl (by simp [htool.1]))
    simp only [mergeCandidate, hnone, unionToolCall, retainFinalMessage, htool]
    split <;> simp_all
  rw [mergeCandidate, reconcileRosterUpsert_eq]
  simp only [unionToolCall, retainFinalMessage, ConversationItem.hasBlock, if_neg htool]
  split <;> simp_all

theorem mergeCandidate_kind (existing candidate : ConversationItem β) :
    (mergeCandidate existing candidate).kind = candidate.kind := by rw [mergeCandidate_eq]

theorem mergeCandidate_role (existing candidate : ConversationItem β) :
    (mergeCandidate existing candidate).role = candidate.role := by rw [mergeCandidate_eq]

theorem reconcileRosterUpsert_self (candidate : ConversationItem β) : reconcileRosterUpsert candidate candidate = candidate := by
  unfold reconcileRosterUpsert
  split
  · rename_i old new hold hnew
    obtain rfl : old = new := Option.some.inj (hold.symm.trans hnew)
    exact if_neg fun h => h.2.2.2.2.2.1 h.2.2.2.2.1
  · rfl

structure Remade (existing candidate again : ConversationItem β) : Prop where
  itemId : again.itemId = candidate.itemId
  kind : again.kind = candidate.kind
  role : again.role = candidate.role
  agent : again.agent = (mergeCandidate existing candidate).agent
  phase : again.phase = (mergeCandidate existing candidate).phase

theorem Remade.reconcile (h : Remade existing candidate again) :
    reconcileRosterUpsert again candidate = reconcileRosterUpsert existing candidate := by
  have hagent : again.agent = (reconcileRosterUpsert existing candidate).agent := by rw [h.agent, mergeCandidate_eq]
  have hphase : candidate.kind = .notice → again.phase = (reconcileRosterUpsert existing candidate).phase := by
    intro hkind
    rw [h.phase, mergeCandidate_eq]
    simp [hkind]
  unfold reconcileRosterUpsert at hagent hphase ⊢
  cases hold : existing.agent with
  | none =>
    rw [hold] at hagent
    cases hnew : candidate.agent with
    | none => split <;> simp_all
    | some new =>
      simp only [hagent, hnew]
      exact if_neg fun hc => hc.2.2.2.2.2.1 hc.2.2.2.2.1
  | some old =>
    cases hnew : candidate.agent with
    | none =>
      rw [hold, hnew] at hagent
      split <;> simp_all
    | some new =>
      simp only [hold, hnew] at hagent hphase ⊢
      by_cases hfires : (existing.kind = .notice ∧ candidate.kind = .notice) ∧
          (existing.role = .system ∧ candidate.role = .system) ∧ rosterId existing.itemId ∧ rosterId candidate.itemId ∧
          old.status.terminal ∧ ¬ new.status.terminal ∧ candidate.source = .nativeHistory
      · rw [if_pos hfires] at hagent hphase ⊢
        have hagain := hphase hfires.1.2
        simp only [hagent, h.kind, h.role, h.itemId, hfires, and_self, hagain]
        simp only [pyOr]
        split <;> simp_all
      rw [if_neg hfires] at hagent ⊢
      simp only [hagent, hnew]
      exact if_neg fun hc => hc.2.2.2.2.2.1 hc.2.2.2.2.1

theorem Remade.merge (h : Remade existing candidate again)
    (hblocks : (mergeCandidate again candidate).blocks = again.blocks) :
    mergeCandidate again candidate = { candidate with agent := again.agent, phase := again.phase, blocks := again.blocks } := by
  have hagent : again.agent = (reconcileRosterUpsert existing candidate).agent := by rw [h.agent, mergeCandidate_eq]
  have hphase := h.phase
  rw [mergeCandidate_eq] at hblocks hphase ⊢
  rw [h.reconcile] at hblocks ⊢
  dsimp only at hblocks
  rw [hblocks, ← hagent, h.kind]
  dsimp only at hphase
  congr 1
  by_cases htool : candidate.kind = .toolCall
  · rw [reconcileRosterUpsert_other (.inr (by simp [htool]))] at hphase ⊢
    by_cases hkept : existing.kind = .toolCall ∧ candidate.kind = .toolCall ∧ candidate.phase = .streaming ∧ existing.phase.terminal
    · rw [if_pos hkept] at hphase
      rw [hphase, if_pos ⟨htool, htool, hkept.2.2⟩]
    rw [if_neg hkept] at hphase
    rw [hphase]
    split <;> rfl
  rw [if_neg (fun hc => htool hc.1)]
  rw [if_neg (fun hc => htool hc.2.1)] at hphase
  exact hphase.symm

deriving instance ReflBEq for BlockBody
deriving instance ReflBEq for ConversationContentBlock
deriving instance ReflBEq for ConversationItem

/-! ## Applying an item twice -/

def Outlasts (candidate : ConversationItem β) (delta : MappedBlockDelta) : Prop :=
  delta.target candidate ∈ authoritativeBlockIds candidate ∨
    if candidate.hasBlock (delta.target candidate) then
      ∀ block ∈ candidate.blocks, block.blockId = delta.target candidate → appendText block delta.delta = block
    else candidate.kind = .toolCall ∨ candidate.kind = .notice ∧ delta.target candidate = "final-message"

/-- A repeat of the candidate finds what the first one made of it. -/
structure Repeatable (s : ProjectionStore β) (candidate : ConversationItem β) : Prop where
  waiting : ∀ delta ∈ (s.pendingDeltas.get? candidate.itemId).getD [], Outlasts candidate delta
  blockIds : candidate.kind = .toolCall → (∀ existing, s.items.get? candidate.itemId = some existing → existing.kind ≠ .toolCall) →
    (candidate.blocks.map (·.blockId)).Nodup
  role : ∀ existing, s.items.get? candidate.itemId = some existing → existing.role = .user → candidate.role ≠ .user →
    existing.lane = candidate.lane ∧ existing.source = candidate.source

def Grown (candidate : ConversationItem β) (blocks : List (ConversationContentBlock β)) : Prop :=
  ∃ extra, blocks = candidate.blocks ++ extra ∧ (extra.map (·.blockId)).Nodup ∧
    ∀ block ∈ extra, candidate.hasBlock block.blockId = false ∧
      (candidate.kind = .toolCall ∨ candidate.kind = .notice ∧ block.blockId = "final-message")

structure Arriving (candidate : ConversationItem β) (waiting : List MappedBlockDelta) (item : ConversationItem β) : Prop where
  outlast : ∀ delta ∈ waiting, Outlasts candidate delta
  header : ∃ revision ordinal, item = { candidate with revision := revision, globalOrdinal := ordinal, blocks := item.blocks }
  grown : Grown candidate item.blocks

theorem Arriving.target {waiting : List MappedBlockDelta} (h : Arriving candidate waiting item)
    (delta : MappedBlockDelta) : delta.target item = delta.target candidate := by
  obtain ⟨revision, ordinal, heq⟩ := h.header
  rw [heq]
  rfl

theorem Arriving.takes {delta : MappedBlockDelta} {rest : List MappedBlockDelta}
    (h : Arriving candidate (delta :: rest) item) (hauth : delta.target item ∉ authoritativeBlockIds candidate) :
    Arriving candidate rest (item.received (delta.target item) delta.delta) := by
  obtain ⟨revision, ordinal, heq⟩ := h.header
  obtain ⟨extra, hblocks, hnodup, hextra⟩ := h.grown
  rw [h.target] at hauth ⊢
  have hlast := (h.outlast delta (by simp)).resolve_left hauth
  have hrest : ∀ d ∈ rest, Outlasts candidate d := fun d hd => h.outlast d (List.mem_cons_of_mem _ hd)
  have hids : (extra.map fun block => if block.blockId ≠ delta.target candidate then block else appendText block delta.delta).map
      (·.blockId) = extra.map (·.blockId) := by
    rw [List.map_map]
    refine List.map_congr_left fun block _ => ?_
    dsimp only [Function.comp]
    split
    · rfl
    · exact appendText_blockId _ _
  have hmapped : Grown candidate (candidate.blocks ++
      extra.map fun block => if block.blockId ≠ delta.target candidate then block else appendText block delta.delta) := by
    refine ⟨_, rfl, hids ▸ hnodup, fun block hmem => ?_⟩
    obtain ⟨old, hold, rfl⟩ := List.mem_map.mp hmem
    have hid : (if old.blockId ≠ delta.target candidate then old else appendText old delta.delta).blockId = old.blockId := by
      split
      · rfl
      · exact appendText_blockId _ _
    rw [hid]
    exact hextra old hold
  by_cases hhas : item.hasBlock (delta.target candidate) = true
  · refine ⟨hrest, ⟨revision + 1, ordinal, ?_⟩, ?_⟩
    · rw [ConversationItem.received, if_pos hhas, heq]
      rfl
    have hcarried : candidate.blocks.map (fun block =>
        if block.blockId ≠ delta.target candidate then block else appendText block delta.delta) = candidate.blocks := by
      refine (List.map_congr_left fun block hmem => ?_).trans (List.map_id _)
      dsimp only [id]
      by_cases hid : block.blockId = delta.target candidate
      · have hc : candidate.hasBlock (delta.target candidate) = true := List.any_eq_true.mpr ⟨block, hmem, by simpa using hid⟩
        rw [if_pos hc] at hlast
        rw [if_neg (not_not_intro hid), hlast block hmem hid]
      · rw [if_pos hid]
    rw [ConversationItem.received, if_pos hhas, ConversationItem.withDelta]
    dsimp only
    rw [hblocks, List.map_append, hcarried]
    exact hmapped
  · have hnone := hasBlock_eq_false.mp (Bool.eq_false_iff.mpr hhas)
    rw [hblocks] at hnone
    have hc : candidate.hasBlock (delta.target candidate) = false :=
      hasBlock_eq_false.mpr fun block hmem => hnone block (List.mem_append_left _ hmem)
    rw [if_neg (by simp [hc])] at hlast
    refine ⟨hrest, ⟨revision + 1, ordinal, ?_⟩, ?_⟩
    · rw [ConversationItem.received, if_neg hhas, heq]
      rfl
    rw [ConversationItem.received, if_neg hhas, ConversationItem.mintBlockWithText]
    dsimp only
    rw [hblocks, List.append_assoc]
    refine ⟨_, rfl, ?_, fun block hmem => ?_⟩
    · rw [List.map_append, List.map_singleton, List.nodup_append]
      refine ⟨hnodup, by simp, ?_⟩
      intro id hid id' hid' he
      obtain ⟨block, hmem, rfl⟩ := List.mem_map.mp hid
      exact hnone block (List.mem_append_right _ hmem) (he.trans (List.mem_singleton.mp hid'))
    rcases List.mem_append.mp hmem with hmem | hmem
    · exact hextra block hmem
    · rw [List.mem_singleton.mp hmem]
      exact ⟨hc, hlast⟩

theorem Grown.stable (h : Grown candidate again.blocks) (hkind : again.kind = candidate.kind)
    (hids : candidate.kind = .toolCall → (candidate.blocks.map (·.blockId)).Nodup) :
    (mergeCandidate again candidate).blocks = again.blocks := by
  obtain ⟨extra, hblocks, hnodup, hextra⟩ := h
  rw [mergeCandidate_eq]
  dsimp only
  rw [hkind]
  by_cases htool : candidate.kind = .toolCall
  · rw [if_pos ⟨htool, htool⟩]
    apply unionBlocks_of_subset
    · rw [hblocks, List.map_append, List.nodup_append]
      refine ⟨hids htool, hnodup, ?_⟩
      intro id hid id' hid' he
      obtain ⟨block, hmem, rfl⟩ := List.mem_map.mp hid
      obtain ⟨block', hmem', rfl⟩ := List.mem_map.mp hid'
      exact hasBlock_eq_false.mp (hextra block' hmem').1 block hmem he
    intro block hmem
    rw [hblocks]
    exact List.mem_append_left _ hmem
  · rw [if_neg fun hc => htool hc.1]
    have hfinal : ∀ block ∈ extra, candidate.kind = .notice ∧ block.blockId = "final-message" := fun block hmem =>
      (hextra block hmem).2.resolve_left htool
    by_cases hnotice : (candidate.kind = .notice ∧ candidate.kind = .notice) ∧ ¬ candidate.hasBlock "final-message"
    · rw [if_pos hnotice, hblocks, List.filter_append, List.filter_eq_nil_iff.mpr, List.nil_append, List.filter_eq_self.mpr]
      · intro block hmem
        simpa using (hfinal block hmem).2
      · intro block hmem
        simpa using hasBlock_eq_false.mp (Bool.eq_false_iff.mpr hnotice.2) block hmem
    rw [if_neg hnotice, hblocks]
    have hnil : extra = [] := by
      refine List.eq_nil_iff_forall_not_mem.mpr fun block hmem => ?_
      have hf := hfinal block hmem
      have hmissing := (hextra block hmem).1
      rw [hf.2] at hmissing
      exact hnotice ⟨⟨hf.1, hf.1⟩, by simp [hmissing]⟩
    rw [hnil, List.append_nil]

section
variable [BEq β] {s : ProjectionStore β} {candidate : ConversationItem β}

variable {existing : ConversationItem β}

theorem applyItem_same (hold : s.items.get? candidate.itemId = some existing) (hid : existing.itemId = candidate.itemId)
    (hnone : s.pendingDeltas.get? candidate.itemId = none)
    (hsame : sameButNormalized existing (mergeCandidate existing candidate) = true) :
    s.applyItem candidate = some (s, []) := by
  simp only [ProjectionStore.applyItem, hold, hsame, if_true]
  exact flush_none (hid ▸ hnone)

variable [ReflBEq β]

theorem same_again {again : ConversationItem β} (h : Remade existing candidate again)
    (hrest : ∃ revision ordinal lane source provenance agent phase createdAt blocks, again =
      { candidate with
        revision := revision, globalOrdinal := ordinal, lane := lane, source := source, provenance := provenance, agent := agent,
        phase := phase, createdAt := createdAt, blocks := blocks })
    (hauthority : again.role ≠ .user → again.lane = candidate.lane ∧ again.source = candidate.source)
    (hblocks : (mergeCandidate again candidate).blocks = again.blocks) :
    sameButNormalized again (mergeCandidate again candidate) = true := by
  obtain ⟨revision, ordinal, lane, source, provenance, agent, phase, createdAt, blocks, rfl⟩ := hrest
  rw [h.merge hblocks, sameButNormalized]
  have heq : ∀ {a b : ConversationItem β}, a = b → (a == b) = true := by
    intro a b hab
    rw [hab]
    exact ReflBEq.rfl
  apply heq
  by_cases hrole : candidate.role = .user
  · simp [preservedInputAuthority, ConversationItem.normalized, hrole]
  obtain ⟨hl, hs⟩ := hauthority hrole
  simp [preservedInputAuthority, ConversationItem.normalized, hrole]
  exact ⟨hl.symm, hs.symm⟩

omit [BEq β] [ReflBEq β] in
theorem upserted_eq (existing candidate : ConversationItem β) :
    ∃ revision ordinal lane source provenance agent phase createdAt blocks,
      ProjectionStore.upserted existing (mergeCandidate existing candidate) =
        { candidate with
          revision := revision, globalOrdinal := ordinal, lane := lane, source := source, provenance := provenance, agent := agent,
          phase := phase, createdAt := createdAt, blocks := blocks } := by
  rw [mergeCandidate_eq]
  exact ⟨_, _, _, _, _, _, _, _, _, rfl⟩

theorem applyItem_twice (hs : s.toTimeline.Sound) (hb : s.Buffers) (h : Repeatable s candidate) {s' : ProjectionStore β}
    {ms : List (StoreMutation β)} (happly : s.applyItem candidate = some (s', ms)) : s'.applyItem candidate = some (s', []) := by
  cases hget : s.items.get? candidate.itemId with
  | none =>
    have hP : Arriving candidate ((s.pendingDeltas.get? candidate.itemId).getD []) (s.arrived candidate) :=
      ⟨h.waiting, ⟨1, s.order.length + 1, rfl⟩, ⟨[], (List.append_nil _).symm, List.nodup_nil, by simp⟩⟩
    obtain ⟨t, ms', item, hcall, hitem, ⟨-, ⟨revision, ordinal, heq⟩, hgrown⟩, -, hnone⟩ := arrival_rule
      (fun delta rest item h _ => ⟨fun d hd => h.outlast d (List.mem_cons_of_mem _ hd), h.header, h.grown⟩)
      (fun delta rest item h hauth => h.takes hauth) hget hP
    obtain ⟨rfl, rfl⟩ := Prod.mk.inj (Option.some.inj (hcall.symm.trans happly))
    have hkind : item.kind = candidate.kind := by rw [heq]
    have hblocks := hgrown.stable hkind fun htool => h.blockIds htool fun existing hold => by rw [hget] at hold; cases hold
    have hself : mergeCandidate candidate candidate = { candidate with blocks := (mergeCandidate candidate candidate).blocks } := by
      rw [mergeCandidate_eq, reconcileRosterUpsert_self]
      congr 1
      split <;> rfl
    have hremade : Remade candidate candidate item := by
      constructor
      · rw [heq]
      · exact hkind
      · rw [heq]
      · rw [heq, hself]
      · rw [heq, hself]
    refine applyItem_same hitem (by rw [heq]) hnone (same_again hremade ⟨revision, ordinal, _, _, _, _, _, _, _, heq⟩ ?_ hblocks)
    intro _
    rw [heq]
    exact ⟨rfl, rfl⟩
  | some existing =>
    have hid : existing.itemId = candidate.itemId := hs.filed _ _ hget
    have hpending : s.pendingDeltas.get? candidate.itemId = none := by
      by_contra hsome
      obtain ⟨pending, hpending⟩ := Option.ne_none_iff_exists'.mp hsome
      have hmissing := hb.unseen _ _ hpending
      rw [hget] at hmissing
      cases hmissing
    rcases applyItem_updates hs hb hget happly with ⟨hsame, rfl⟩ | ⟨hdeltas, hitems⟩
    · exact applyItem_same hget hid hpending hsame
    let item := ProjectionStore.upserted existing (mergeCandidate existing candidate)
    have hkept : item.itemId = candidate.itemId := mergeCandidate_itemId existing candidate
    have hitem : s'.items.get? candidate.itemId = some item := by
      rw [hitems]
      exact Dict.get?_set_self ..
    have hremade : Remade existing candidate item := ⟨hkept, mergeCandidate_kind _ _, mergeCandidate_role _ _, rfl, rfl⟩
    have hblocks : (mergeCandidate item candidate).blocks = item.blocks := by
      have hitemBlocks : item.blocks = (mergeCandidate existing candidate).blocks := rfl
      rw [mergeCandidate_eq] at hitemBlocks
      rw [mergeCandidate_eq]
      dsimp only at hitemBlocks ⊢
      rw [hremade.kind]
      by_cases htool : candidate.kind = .toolCall
      · rw [if_pos ⟨htool, htool⟩]
        by_cases hold : existing.kind = .toolCall
        · rw [if_pos ⟨hold, htool⟩] at hitemBlocks
          rw [hitemBlocks]
          exact unionBlocks_again _ _
        rw [if_neg fun hc => hold hc.1, if_neg fun hc => hold (by rw [hc.1.2] at htool; cases htool)] at hitemBlocks
        rw [hitemBlocks]
        refine unionBlocks_of_subset (h.blockIds htool fun e he => ?_) fun _ hmem => hmem
        rw [← Option.some.inj (hget.symm.trans he)]
        exact hold
      rw [if_neg fun hc => htool hc.1]
      rw [if_neg fun hc => htool hc.2] at hitemBlocks
      by_cases hnotice : (candidate.kind = .notice ∧ candidate.kind = .notice) ∧ ¬ candidate.hasBlock "final-message"
      · rw [if_pos hnotice]
        have hmissing : candidate.blocks.filter (fun block => block.blockId == "final-message") = [] :=
          List.filter_eq_nil_iff.mpr fun block hmem =>
            by simpa using hasBlock_eq_false.mp (Bool.eq_false_iff.mpr hnotice.2) block hmem
        rw [hitemBlocks]
        split
        · rw [List.filter_append, hmissing, List.nil_append, List.filter_filter]
          simp only [Bool.and_self]
        · rw [hmissing, List.append_nil]
      · rw [if_neg hnotice, hitemBlocks]
        exact (if_neg fun hc => hnotice ⟨⟨hc.1.2, hc.1.2⟩, hc.2⟩).symm
    refine applyItem_same hitem hkept (hdeltas ▸ hpending) (same_again hremade (upserted_eq existing candidate) ?_ hblocks)
    intro hrole
    rw [hremade.role] at hrole
    have hcandidate : (mergeCandidate existing candidate).lane = candidate.lane ∧
        (mergeCandidate existing candidate).source = candidate.source := by
      rw [mergeCandidate_eq]
      exact ⟨rfl, rfl⟩
    show (if existing.role = .user then existing.lane else (mergeCandidate existing candidate).lane) = _ ∧
      (if existing.role = .user then existing.source else (mergeCandidate existing candidate).source) = _
    by_cases huser : existing.role = .user
    · rw [if_pos huser, if_pos huser]
      exact h.role existing hget huser hrole
    · rw [if_neg huser, if_neg huser]
      exact hcandidate

end

/-! ## Sequences of upserts -/

def ConversationItem.SettledRoster (item : ConversationItem β) : Prop :=
  item.kind = .notice ∧ item.role = .system ∧ rosterId item.itemId = true ∧ ∃ agent, item.agent = some agent ∧ agent.status.terminal = true

structure Steady (existing candidate : ConversationItem β) : Prop where
  toolCall : existing.kind = .toolCall → existing.phase.terminal →
    candidate.kind = .toolCall ∧ (candidate.phase.terminal ∨ candidate.phase = .streaming)
  roster : existing.SettledRoster → candidate.kind = .notice ∧ candidate.role = .system ∧ candidate.agent.isSome
  role : existing.role = .user → candidate.role = .user

/-- What the upserts `cs` leave of an item. -/
structure Kept (cs : List (ConversationItem β)) (item item' : ConversationItem β) : Prop where
  itemId : item'.itemId = item.itemId
  toolCall : item.kind = .toolCall → item.phase.terminal → item'.kind = .toolCall ∧ item'.phase.terminal
  roster : item.SettledRoster → (∀ c ∈ cs, c.itemId = item.itemId → c.source = .nativeHistory) → item'.SettledRoster
  authority : item.role = .user → item'.role = .user ∧ item'.lane = item.lane ∧ item'.source = item.source ∧
    item'.provenance = item.provenance

theorem Kept.refl (cs : List (ConversationItem β)) (item : ConversationItem β) : Kept cs item item :=
  ⟨rfl, fun h h' => ⟨h, h'⟩, fun h _ => h, fun h => ⟨h, rfl, rfl, rfl⟩⟩

theorem Kept.cons {c : ConversationItem β} {cs : List (ConversationItem β)} {item' item'' : ConversationItem β}
    (h : Kept [c] item item') (h' : Kept cs item' item'') : Kept (c :: cs) item item'' where
  itemId := h'.itemId.trans h.itemId
  toolCall hk hp := h'.toolCall (h.toolCall hk hp).1 (h.toolCall hk hp).2
  roster hr hn := h'.roster (h.roster hr fun d hd => hn d (List.mem_cons.mpr (.inl (List.mem_singleton.mp hd))))
    fun d hd hid => hn d (List.mem_cons_of_mem _ hd) (hid.trans h.itemId)
  authority hu := by
    obtain ⟨hu', hl, hs, hp⟩ := h.authority hu
    obtain ⟨hu'', hl', hs', hp'⟩ := h'.authority hu'
    exact ⟨hu'', hl'.trans hl, hs'.trans hs, hp'.trans hp⟩

theorem Steady.kept (h : Steady existing candidate) (hid : existing.itemId = candidate.itemId) :
    Kept [candidate] existing (ProjectionStore.upserted existing (mergeCandidate existing candidate)) := by
  have hmerge := mergeCandidate_eq existing candidate
  have hkind := mergeCandidate_kind existing candidate
  have hrole := mergeCandidate_role existing candidate
  have hkept : (mergeCandidate existing candidate).itemId = existing.itemId := by rw [mergeCandidate_itemId, hid]
  refine ⟨hkept, fun htool hphase => ⟨?_, ?_⟩, fun hsettled hnative => ⟨?_, ?_, ?_, ?_⟩, fun huser => ⟨?_, ?_, ?_, rfl⟩⟩
  · exact hkind.trans (h.toolCall htool hphase).1
  · show (mergeCandidate existing candidate).phase.terminal = true
    obtain ⟨htool', hnext⟩ := h.toolCall htool hphase
    rw [hmerge]
    dsimp only
    by_cases hstream : candidate.phase = .streaming
    · rw [if_pos ⟨htool, htool', hstream, hphase⟩]
      exact hphase
    rw [if_neg fun hc => hstream hc.2.2.1]
    rw [reconcileRosterUpsert_other (.inl (by simp [htool]))]
    exact hnext.resolve_right hstream
  · exact hkind.trans (h.roster hsettled).1
  · exact hrole.trans (h.roster hsettled).2.1
  · show rosterId (mergeCandidate existing candidate).itemId = true
    rw [hkept]
    exact hsettled.2.2.1
  · obtain ⟨hnotice, hsystem, hsome⟩ := h.roster hsettled
    obtain ⟨hek, her, hroster, old, hold, hterminal⟩ := hsettled
    obtain ⟨new, hnew⟩ := Option.isSome_iff_exists.mp hsome
    show ∃ agent, (mergeCandidate existing candidate).agent = some agent ∧ agent.status.terminal = true
    rw [hmerge]
    simp only [reconcileRosterUpsert, hold, hnew]
    by_cases hnext : new.status.terminal = true
    · rw [if_neg fun hc => hc.2.2.2.2.2.1 hnext, hnew]
      exact ⟨new, rfl, hnext⟩
    have hsource := hnative candidate (by simp) hid.symm
    rw [if_pos ⟨⟨hek, hnotice⟩, ⟨her, hsystem⟩, hroster, hid ▸ hroster, hterminal, hnext, hsource⟩]
    exact ⟨_, rfl, hterminal⟩
  · exact hrole.trans (h.role huser)
  · exact if_pos huser
  · exact if_pos huser

section
variable [BEq β] {s : ProjectionStore β}

def applyItems : ProjectionStore β → List (ConversationItem β) → Option (ProjectionStore β)
  | s, [] => some s
  | s, c :: cs => (s.applyItem c).bind fun applied => applyItems applied.1 cs

/-- Every upsert of the sequence is steady on the item that it meets. -/
def Steadily : ProjectionStore β → List (ConversationItem β) → Prop
  | _, [] => True
  | s, c :: cs => (∀ existing, s.items.get? c.itemId = some existing → Steady existing c) ∧
      ∀ s' ms, s.applyItem c = some (s', ms) → Steadily s' cs

variable {c : ConversationItem β} {s' : ProjectionStore β} {ms : List (StoreMutation β)}

theorem applyItem_kept (hs : s.toTimeline.Sound) (hb : s.Buffers)
    (hsteady : ∀ existing, s.items.get? c.itemId = some existing → Steady existing c)
    (happly : s.applyItem c = some (s', ms)) {id : String} {item : ConversationItem β}
    (hitem : s.items.get? id = some item) : ∃ item', s'.items.get? id = some item' ∧ Kept [c] item item' := by
  cases hget : s.items.get? c.itemId with
  | none =>
    have hne : id ≠ c.itemId := fun he => by rw [he, hget] at hitem; cases hitem
    obtain ⟨t, ms', arrived, hcall, -, -, hothers, -⟩ := arrival_rule (P := fun _ _ => True) (fun _ _ _ _ _ => trivial)
      (fun _ _ _ _ _ => trivial) hget trivial
    obtain ⟨rfl, -⟩ := Prod.mk.inj (Option.some.inj (hcall.symm.trans happly))
    exact ⟨item, (hothers id hne).trans hitem, .refl _ _⟩
  | some existing =>
    have hid : existing.itemId = c.itemId := hs.filed _ _ hget
    rcases applyItem_updates hs hb hget happly with ⟨-, rfl⟩ | ⟨-, hitems⟩
    · exact ⟨item, hitem, .refl _ _⟩
    rw [hitems, Dict.get?_set]
    by_cases he : c.itemId = id
    · rw [if_pos he]
      obtain rfl : existing = item := Option.some.inj (hget.symm.trans (he ▸ hitem))
      exact ⟨_, rfl, (hsteady existing hget).kept hid⟩
    · rw [if_neg he]
      exact ⟨item, hitem, .refl _ _⟩

theorem applyItem_sound (hs : s.toTimeline.Sound) (hb : s.Buffers) (happly : s.applyItem c = some (s', ms)) :
    s'.toTimeline.Sound ∧ s'.Buffers := by
  obtain ⟨t, ms', hcall, hemits, hbuffers⟩ := serves_free hs hb (c := .applyItem c)
  obtain ⟨rfl, -⟩ := Prod.mk.inj (Option.some.inj (hcall.symm.trans happly))
  exact ⟨hemits.sound hs, hbuffers⟩

theorem applyItems_kept {cs : List (ConversationItem β)} : ∀ {s s' : ProjectionStore β}, s.toTimeline.Sound → s.Buffers →
    Steadily s cs → applyItems s cs = some s' → ∀ {id : String} {item : ConversationItem β}, s.items.get? id = some item →
    ∃ item', s'.items.get? id = some item' ∧ Kept cs item item' := by
  induction cs with
  | nil =>
    intro s s' _ _ _ h id item hitem
    obtain rfl := Option.some.inj h
    exact ⟨item, hitem, .refl _ _⟩
  | cons c cs ih =>
    intro s s' hs hb hsteady h id item hitem
    obtain ⟨⟨t, ms⟩, happly, hrest⟩ := Option.bind_eq_some_iff.mp h
    obtain ⟨item', hitem', hkept⟩ := applyItem_kept hs hb hsteady.1 happly hitem
    obtain ⟨ht, htb⟩ := applyItem_sound hs hb happly
    obtain ⟨item'', hitem'', hkept'⟩ := ih ht htb (hsteady.2 t ms happly) hrest hitem'
    exact ⟨item'', hitem'', hkept.cons hkept'⟩

end

def openedMessage : ConversationItem Nat := harnessItem "m" .message .streaming [⟨"markdown", .markdown ""⟩]

def MappedBlockDelta.targetIn (kind : ItemKind) (delta : MappedBlockDelta) : String :=
  if delta.blockId = "" then (if kind = .toolCall then "output" else "markdown") else delta.blockId

/-- What the deltas for one block say, one after the other. -/
def deltaText (kind : ItemKind) (blockId : String) (deltas : List MappedBlockDelta) : String :=
  (deltas.filter fun delta => delta.targetIn kind = blockId).foldl (fun text delta => text ++ delta.delta) ""

theorem deltaText_concat (kind : ItemKind) (blockId : String) (deltas : List MappedBlockDelta) (delta : MappedBlockDelta) :
    deltaText kind blockId (deltas ++ [delta]) =
      if delta.targetIn kind = blockId then deltaText kind blockId deltas ++ delta.delta else deltaText kind blockId deltas := by
  rw [deltaText, List.filter_append, List.foldl_append]
  by_cases h : delta.targetIn kind = blockId <;> simp [h, deltaText]

theorem appendText_takes (h : block.takesText = true) (delta : String) :
    (appendText block delta).takesText = true ∧ blockContentText (appendText block delta) = blockContentText block ++ delta := by
  obtain ⟨id, body⟩ := block
  cases body <;> simp_all [ConversationContentBlock.takesText, appendText, blockContentText]

/-- The blocks of an id hold the text of the deltas, and are there if there is such a delta. -/
structure CarriesText (kind : ItemKind) (blockId : String) (deltas : List MappedBlockDelta) (item : ConversationItem β) : Prop where
  sort : item.kind = kind
  text : ∀ block ∈ item.blocks, block.blockId = blockId →
    block.takesText = true ∧ blockContentText block = deltaText kind blockId deltas
  block : (∃ delta ∈ deltas, delta.targetIn kind = blockId) → ∃ block ∈ item.blocks, block.blockId = blockId

section
variable {kind : ItemKind} {blockId : String} {deltas : List MappedBlockDelta} {item : ConversationItem β}

theorem CarriesText.skips (h : CarriesText kind blockId deltas item) {delta : MappedBlockDelta} (hne : delta.targetIn kind ≠ blockId) :
    CarriesText kind blockId (deltas ++ [delta]) item := by
  refine ⟨h.sort, ?_, ?_⟩
  · rw [deltaText_concat, if_neg hne]
    exact h.text
  rintro ⟨d, hd, htarget⟩
  rcases List.mem_append.mp hd with hd | hd
  · exact h.block ⟨d, hd, htarget⟩
  · exact absurd (List.mem_singleton.mp hd ▸ htarget) hne

theorem CarriesText.takes (h : CarriesText kind blockId deltas item) (delta : MappedBlockDelta) :
    CarriesText kind blockId (deltas ++ [delta]) (item.received (delta.target item) delta.delta) := by
  have htarget : delta.target item = delta.targetIn kind := by
    rw [← h.sort]
    rfl
  rw [htarget]
  by_cases hne : delta.targetIn kind = blockId
  · rw [hne]
    refine ⟨(received_kind _ _ _).trans h.sort, ?_, fun _ => received_block _ _ _⟩
    intro block hmem hid
    rw [deltaText_concat, if_pos hne]
    rcases mem_received hmem with ⟨-, hother⟩ | ⟨old, hold, hold', rfl⟩ | ⟨hnone, -, htakes, htext⟩
    · exact absurd hid hother
    · obtain ⟨htakes, htext⟩ := h.text old hold hold'
      rw [← htext]
      exact appendText_takes htakes delta.delta
    have hempty : deltaText kind blockId deltas = "" := by
      rw [deltaText, List.filter_eq_nil_iff.mpr, List.foldl_nil]
      intro d hd
      have hno : d.targetIn kind ≠ blockId := fun ht =>
        let ⟨block, hmem, hid⟩ := h.block ⟨d, hd, ht⟩
        hnone block hmem hid
      simpa using hno
    rw [hempty, String.empty_append]
    exact ⟨htakes, htext⟩
  · have hskip := h.skips hne
    refine ⟨(received_kind _ _ _).trans h.sort, ?_, fun hd => ?_⟩
    · intro block hmem hid
      rcases mem_received hmem with ⟨hmem, -⟩ | ⟨old, -, hold, rfl⟩ | ⟨-, hown, -⟩
      · exact hskip.text block hmem hid
      · rw [appendText_blockId] at hid
        exact absurd (hold.symm.trans hid) hne
      · exact absurd (hown.symm.trans hid) hne
    · obtain ⟨old, hold, hid⟩ := hskip.block hd
      exact ⟨old, received_keeps hold fun he => hne (he.symm.trans hid), hid⟩

theorem CarriesText.unions (h : CarriesText kind blockId deltas item) {again : ConversationItem β} (hkind : again.kind = kind)
    {candidate : List (ConversationContentBlock β)} (hblocks : again.blocks = unionBlocks item.blocks candidate)
    (hnone : ∀ block ∈ candidate, block.blockId ≠ blockId) : CarriesText kind blockId deltas again := by
  have hset : setBlocks (setBlocks Dict.empty item.blocks) candidate = setBlocks Dict.empty (item.blocks ++ candidate) := by
    rw [setBlocks, setBlocks, setBlocks, List.foldl_append]
  refine ⟨hkind, ?_, fun hd => ?_⟩
  · intro block hmem hid
    rw [hblocks, unionBlocks_eq, hset] at hmem
    obtain ⟨id, hget⟩ := Dict.mem_values.mp hmem
    rcases List.mem_append.mp (blockId_of_setBlocks hget).1 with hmem | hmem
    · exact h.text block hmem hid
    · exact absurd hid (hnone block hmem)
  obtain ⟨old, hold, hid⟩ := h.block hd
  cases hfind : (setBlocks Dict.empty (item.blocks ++ candidate)).get? blockId with
  | none =>
    rw [get?_setBlocks, Dict.get?_empty, Option.or_none] at hfind
    have hmissing := List.find?_eq_none.mp hfind old (List.mem_reverse.mpr (List.mem_append_left _ hold))
    exact absurd hid (by simpa using hmissing)
  | some found =>
    refine ⟨found, ?_, (blockId_of_setBlocks hfind).2⟩
    rw [hblocks, unionBlocks_eq, hset]
    exact Dict.mem_values.mpr ⟨blockId, hfind⟩

end

section
variable [BEq β]

/-- A delta for the item, or an upsert of a tool call that does not carry the block. -/
def Leaves (first : ConversationItem β) (blockId : String) : Call β → Prop
  | .applyDelta delta => delta.itemId = first.itemId
  | .applyItem candidate => candidate.itemId = first.itemId ∧ first.kind = .toolCall ∧ candidate.kind = .toolCall ∧
      candidate.hasBlock blockId = false
  | .applyProvenance .. => False

def Call.delta? : Call β → Option MappedBlockDelta
  | .applyDelta delta => some delta
  | _ => none

variable {first item : ConversationItem β} {blockId : String} {deltas : List MappedBlockDelta}

variable {s : ProjectionStore β}

theorem call_carries (hs : s.toTimeline.Sound) (hb : s.Buffers) (hitem : s.items.get? first.itemId = some item)
    (h : CarriesText first.kind blockId deltas item) {c : Call β} (hc : Leaves first blockId c) :
    ∃ s' ms item', s.call c = some (s', ms) ∧ s'.toTimeline.Sound ∧ s'.Buffers ∧
      s'.items.get? first.itemId = some item' ∧ CarriesText first.kind blockId (deltas ++ c.delta?.toList) item' := by
  obtain ⟨s', ms, hcall, hemits, hbuffers⟩ := serves_free hs hb (c := c)
  refine ⟨s', ms, ?_⟩
  have hid : item.itemId = first.itemId := hs.filed _ _ hitem
  cases c with
  | applyDelta delta =>
    have hc : delta.itemId = first.itemId := hc
    have hstore : s' = s.setItem (item.received (delta.target item) delta.delta) := by
      have heq := Option.some.inj hcall
      rw [ProjectionStore.applyDelta, hc, hitem] at heq
      rw [← extend_store]
      exact (congrArg Prod.fst heq).symm
    refine ⟨_, hcall, hemits.sound hs, hbuffers, ?_, h.takes delta⟩
    rw [hstore, ← hid, ← received_itemId item (delta.target item) delta.delta]
    exact Dict.get?_set_self ..
  | applyItem candidate =>
    obtain ⟨hfirst, hkind, htool, hnone⟩ := hc
    rw [show (Call.applyItem candidate).delta?.toList = [] from rfl, List.append_nil]
    rcases applyItem_updates hs hb (hfirst ▸ hitem) hcall with ⟨-, rfl⟩ | ⟨-, hitems⟩
    · exact ⟨item, hcall, hs, hb, hitem, h⟩
    refine ⟨_, hcall, hemits.sound hs, hbuffers, by rw [hitems, hfirst]; exact Dict.get?_set_self .., ?_⟩
    have hblocks : (mergeCandidate item candidate).blocks = unionBlocks item.blocks candidate.blocks := by
      rw [mergeCandidate_eq]
      exact if_pos ⟨h.sort.trans hkind, htool⟩
    exact h.unions ((mergeCandidate_kind item candidate).trans (htool.trans hkind.symm)) hblocks (hasBlock_eq_false.mp hnone)
  | applyProvenance requestId source => exact hc.elim

theorem run_carries {calls : List (Call β)} : ∀ {w : World β} {deltas : List MappedBlockDelta} {item : ConversationItem β},
    w.store.toTimeline.Sound → w.store.Buffers → w.store.items.get? first.itemId = some item →
    CarriesText first.kind blockId deltas item → (∀ c ∈ calls, Leaves first blockId c) →
    ∃ w' item', runFrom (activeSystem β) w calls = some w' ∧ w'.store.items.get? first.itemId = some item' ∧
      CarriesText first.kind blockId (deltas ++ calls.filterMap Call.delta?) item' := by
  induction calls with
  | nil =>
    intro w deltas item _ _ hitem h _
    exact ⟨w, item, rfl, hitem, by simpa using h⟩
  | cons c calls ih =>
    intro w deltas item hs hb hitem h hcalls
    obtain ⟨s', ms, item', hcall, hs', hb', hitem', h'⟩ := call_carries hs hb hitem h (hcalls c (by simp))
    obtain ⟨w', item'', hrun, hitem'', h''⟩ := ih (w := ⟨s', w.emitted ++ ms⟩) hs' hb' hitem' h'
      fun d hd => hcalls d (List.mem_cons_of_mem _ hd)
    refine ⟨w', item'', ?_, hitem'', ?_⟩
    · rw [runFrom, show (activeSystem β).step w c = some ⟨s', w.emitted ++ ms⟩ by simp only [activeSystem, hcall, Option.map_some]]
      exact hrun
    · rw [List.append_assoc] at h''
      cases hd : c.delta? <;> simpa [List.filterMap_cons, hd] using h''

omit [BEq β] in
theorem bufferDelta_pending {delta : MappedBlockDelta}
    (hroom : ((s.pendingDeltas.get? delta.itemId).getD []).length < maxPendingDeltasPerItem) :
    ((s.bufferDelta delta).pendingDeltas.get? delta.itemId).getD [] = (s.pendingDeltas.get? delta.itemId).getD [] ++ [delta] := by
  unfold ProjectionStore.bufferDelta
  cases hpending : s.pendingDeltas.get? delta.itemId with
  | none => simp
  | some pending =>
    rw [hpending] at hroom
    simp [show pending.length < maxPendingDeltasPerItem from hroom]

theorem run_buffers {id : String} {before : List MappedBlockDelta} : ∀ (waiting : List MappedBlockDelta) {w : World β},
    w.store.toTimeline.Sound → w.store.Buffers → w.store.items.get? id = none →
    (w.store.pendingDeltas.get? id).getD [] = waiting → waiting.length + before.length ≤ maxPendingDeltasPerItem →
    (∀ delta ∈ before, delta.itemId = id) →
    ∃ w', runFrom (activeSystem β) w (before.map .applyDelta) = some w' ∧ w'.store.toTimeline.Sound ∧ w'.store.Buffers ∧
      w'.store.items.get? id = none ∧ (w'.store.pendingDeltas.get? id).getD [] = waiting ++ before := by
  induction before with
  | nil =>
    intro waiting w hs hb hnew hwaiting _ _
    exact ⟨w, rfl, hs, hb, hnew, by simpa using hwaiting⟩
  | cons delta before ih =>
    intro waiting w hs hb hnew hwaiting hroom hids
    have hid : delta.itemId = id := hids delta (by simp)
    subst hid
    rw [List.length_cons] at hroom
    have hcall : w.store.applyDelta delta = (w.store.bufferDelta delta, []) := by rw [ProjectionStore.applyDelta, hnew]
    have htimeline := bufferDelta_timeline w.store delta
    obtain ⟨w', hrun, hs', hb', hnew', hwaiting'⟩ := ih (waiting ++ [delta]) (w := ⟨w.store.bufferDelta delta, w.emitted ++ []⟩)
      (htimeline ▸ hs) (unseen_bufferDelta hb hnew)
      (by rw [← hnew]; exact congrArg (fun t => t.items.get? delta.itemId) htimeline)
      (by rw [← hwaiting]; exact bufferDelta_pending (by rw [hwaiting]; omega))
      (by rw [List.length_append, List.length_singleton]; omega) fun d hd => hids d (List.mem_cons_of_mem _ hd)
    refine ⟨w', ?_, hs', hb', hnew', by rw [hwaiting', List.append_assoc]; rfl⟩
    rw [List.map_cons, runFrom, show (activeSystem β).step w (.applyDelta delta) = some ⟨w.store.bufferDelta delta, w.emitted ++ []⟩ by
      simp only [activeSystem, ProjectionStore.call, hcall, Option.map_some]]
    exact hrun

/-- The text of a block is what its deltas say: at most 64 of them before the item, which carries the block empty or not at
all, and after it deltas and tool-call upserts that do not carry the block. -/
theorem block_text {w : World β} (h : Reachable (activeSystem β) always w) {before : List MappedBlockDelta} {after : List (Call β)}
    (hnew : w.store.items.get? first.itemId = none) (hnone : w.store.pendingDeltas.get? first.itemId = none)
    (hbefore : ∀ delta ∈ before, delta.itemId = first.itemId) (hroom : before.length ≤ maxPendingDeltasPerItem)
    (hfirst : ∀ block ∈ first.blocks, block.blockId = blockId → block.takesText = true ∧ blockContentText block = "")
    (hafter : ∀ c ∈ after, Leaves first blockId c) :
    ∃ w' item, runFrom (activeSystem β) w (before.map .applyDelta ++ .applyItem first :: after) = some w' ∧
      w'.store.items.get? first.itemId = some item ∧
      CarriesText first.kind blockId (before ++ after.filterMap Call.delta?) item := by
  have hw : Accounts False w := accounts_reachable (fun _ _ _ => False.elim) h
  obtain ⟨u, hrun, hs, hb, hnew', hwaiting⟩ := run_buffers [] hw.sound hw.buffers hnew
    (by rw [hnone]; rfl) (by simpa using hroom) hbefore
  have hauth : blockId ∉ authoritativeBlockIds first := by
    intro hmem
    obtain ⟨block, hmem, hid⟩ := List.mem_map.mp hmem
    obtain ⟨hmem, htext⟩ := List.mem_filter.mp hmem
    simp [(hfirst block hmem hid).2] at htext
  let P (rest : List MappedBlockDelta) (item : ConversationItem β) : Prop :=
    ∃ done, done ++ rest = before ∧ CarriesText first.kind blockId done item
  have hP : P ((u.store.pendingDeltas.get? first.itemId).getD []) (u.store.arrived first) :=
    ⟨[], hwaiting, rfl, hfirst, fun ⟨_, hd, _⟩ => nomatch hd⟩
  obtain ⟨s', ms, item, hcall, hitem, ⟨done, hdone, hcarries⟩, -, -⟩ := arrival_rule (P := P)
    (fun delta rest item ⟨done, hdone, hc⟩ hmem => ⟨done ++ [delta], by rw [List.append_assoc]; exact hdone,
      hc.skips fun he => hauth (he ▸ hc.sort ▸ hmem)⟩)
    (fun delta rest item ⟨done, hdone, hc⟩ _ => ⟨done ++ [delta], by rw [List.append_assoc]; exact hdone, hc.takes delta⟩)
    hnew' hP
  rw [List.append_nil] at hdone
  obtain ⟨hs', hb'⟩ := applyItem_sound hs hb hcall
  obtain ⟨w', item', hrun', hitem', hcarries'⟩ := run_carries (w := ⟨s', u.emitted ++ ms⟩) hs' hb' hitem (hdone ▸ hcarries) hafter
  refine ⟨w', item', ?_, hitem', hcarries'⟩
  rw [runFrom_append, hrun, Option.bind_some, runFrom, show (activeSystem β).step u (.applyItem first) = some ⟨s', u.emitted ++ ms⟩ by
    simp only [activeSystem, ProjectionStore.call, hcall, Option.map_some]]
  exact hrun'

end

/-- A tool call with an empty output. -/
def startedTool (blocks : List (ConversationContentBlock Nat)) : ConversationItem Nat := harnessItem "t" .toolCall .streaming blocks

theorem block_text_streamed : Reachable (activeSystem Nat) always (activeSystem Nat).init ∧
    ∃ w' item, runFrom (activeSystem Nat) (activeSystem Nat).init
        ([⟨"t", "", "a"⟩, ⟨"t", "output", "b"⟩].map .applyDelta ++ .applyItem (startedTool []) ::
          [.applyDelta ⟨"t", "", "c"⟩, .applyItem (startedTool [])]) = some w' ∧
      w'.store.items.get? "t" = some item ∧
      CarriesText .toolCall "output" ([⟨"t", "", "a"⟩, ⟨"t", "output", "b"⟩] ++ [⟨"t", "", "c"⟩]) item :=
  ⟨.refl, block_text .refl rfl rfl (by decide) (by decide) (by simp [startedTool, harnessItem]) (by
    simp [Leaves, startedTool, harnessItem, ConversationItem.hasBlock])⟩

def finalText (calls : List (Call Nat)) (id blockId : String) : Option String :=
  (runFrom (activeSystem Nat) (activeSystem Nat).init calls).bind fun w =>
    (w.store.items.get? id).bind fun item => (item.blocks.find? fun block => block.blockId = blockId).map blockContentText

/-- An upsert that carries the block empty takes the text of the applied deltas away. -/
theorem applied_deltas_lost : ¬ ∀ (calls : List (Call Nat)) (blockId text : String),
    (∀ c, .applyItem c ∈ calls → ∀ block ∈ c.blocks, block.blockId = blockId → blockContentText block = "") →
    finalText calls "t" blockId = some text → text = deltaText .toolCall blockId (calls.filterMap Call.delta?) := by
  intro hall
  have htext := hall [.applyItem (startedTool []), .applyDelta ⟨"t", "", "a"⟩, .applyItem (startedTool [⟨"output", .toolOutput none none⟩])]
    "output" "" (by
      intro c hc block hmem _
      simp only [List.mem_cons, Call.applyItem.injEq, reduceCtorEq, List.not_mem_nil, or_false, false_or] at hc
      rcases hc with rfl | rfl
      · cases hmem
      · rw [List.mem_singleton.mp hmem]
        rfl) (by decide +kernel)
  exact absurd htext (by decide +kernel)

end AgentsRemember.Active
