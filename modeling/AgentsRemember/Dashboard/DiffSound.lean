import AgentsRemember.Dashboard.Projector

/-!
# A dashboard that applies a diff follows the projection

Node by node: an upserted node is held as sent, a removed one is gone, and one
without an event is stable-equal in both projections, so what the dashboard
held for the former is right for the latter.
-/

namespace AgentsRemember.Dashboard

open Lib

variable {key : String}

variable {nodes previousNodes currentNodes : List (Node key)} {n : Node key} {ident : String} {s : DashboardState}
  {p q : WorkspaceProjection}

theorem find?_ident (h : (nodes.map Node.ident).Nodup) (hn : n ∈ nodes) :
    (nodes.find? fun m => decide (m.ident = n.ident)) = some n := by
  induction nodes with
  | nil => cases hn
  | cons m nodes ih =>
    rw [List.map_cons, List.nodup_cons] at h
    rcases List.mem_cons.mp hn with rfl | hn
    · simp
    have hne : m.ident ≠ n.ident := fun he => h.1 (he ▸ List.mem_map_of_mem hn)
    rw [List.find?_cons_of_neg (by simpa using hne)]
    exact ih h.2 hn

theorem find?_ident_none : (nodes.find? fun n => decide (n.ident = ident)) = none ↔ ident ∉ nodes.map Node.ident := by
  simp [List.find?_eq_none]

variable (double : Number → Number)

/-- The dashboard's node under an id is the projection's. -/
def Holds (collection : Dict String Payload) (nodes : List (Node key)) (ident : String) : Prop :=
  Option.Rel (fun held (n : Node key) => SameStable held (parsed double n.payload)) (collection.get? ident)
    (nodes.find? fun n => decide (n.ident = ident))

structure FollowsValues (s : DashboardState) (p : WorkspaceProjection) : Prop where
  activeWorktreeGroups : SameStable s.activeWorktreeGroups (parsed double (groupsPayload p.activeWorktreeGroups))
  metrics : SameStable s.metrics (parsed double p.metrics)
  analytics : SameStable s.analytics (parsed double p.analytics)

/-- The dashboard's maps and values are those of the projection, up to the volatile ages. -/
structure Follows (s : DashboardState) (p : WorkspaceProjection) : Prop extends FollowsValues double s p where
  nodes : ∀ k ident, Holds double (s.collection k) (p.nodes k) ident

variable {double} {collection : Dict String Payload} {nodes : List (Node key)}

attribute [local simp] Holds

theorem holds_of
    (hnodes : ∀ n ∈ nodes, ∃ held, collection.get? n.ident = some held ∧ SameStable held (parsed double n.payload))
    (hrest : ∀ ident, ident ∉ nodes.map Node.ident → collection.get? ident = none) (ident : String) :
    Holds double collection nodes ident := by
  unfold Holds
  cases hfind : nodes.find? fun n => decide (n.ident = ident) with
  | none =>
    rw [hrest ident (find?_ident_none.mp hfind)]
    exact .none
  | some n =>
    have hident : n.ident = ident := by simpa using List.find?_some hfind
    obtain ⟨held, hget, hsame⟩ := hnodes n (List.mem_of_find?_eq_some hfind)
    rw [← hident, hget]
    exact .some hsame

theorem Holds.mem (hu : (nodes.map Node.ident).Nodup) (hn : n ∈ nodes) (h : Holds double collection nodes n.ident) :
    ∃ held, collection.get? n.ident = some held ∧ SameStable held (parsed double n.payload) := by
  unfold Holds at h
  rw [find?_ident hu hn] at h
  cases hget : collection.get? n.ident with
  | none =>
    rw [hget] at h
    cases h
  | some held =>
    rw [hget] at h
    cases h with
    | some hsame => exact ⟨held, rfl, hsame⟩

theorem Holds.shapeAt (h : Holds double collection nodes ident) {path : List Json.Step}
    (hpath : Json.Avoids volatileAgeFields.contains path) :
    (collection.get? ident).bind (fun held => held.value.shapeAt path) =
      (nodes.find? fun n => decide (n.ident = ident)).bind fun n => (parsed double n.payload).value.shapeAt path := by
  unfold Holds at h
  cases hget : collection.get? ident <;> cases hfind : nodes.find? (fun n => decide (n.ident = ident)) <;>
    rw [hget, hfind] at h <;> cases h
  · rfl
  · rename_i hsame
    exact hsame path hpath

theorem Holds.absent (h : Holds double collection nodes ident) (hident : ident ∉ nodes.map Node.ident) :
    collection.get? ident = none := by
  unfold Holds at h
  rw [find?_ident_none.mpr hident] at h
  cases hget : collection.get? ident with
  | none => rfl
  | some held =>
    rw [hget] at h
    cases h

theorem keyOf_node (double : Number → Number) (n : Node key) : keyOf key (parsed double n.payload) = n.ident := by
  rw [keyOf, parsed, Json.child_mapScalar, n.keyed]
  rfl

theorem child_marker (key : String) (double : Number → Number) (value : Payload) :
    (parsed double (marker key value.value value.wellKeyed)).value.child (.key key) = some (parsed double value).value := by
  rw [parsed, Json.child_mapScalar]
  simp [marker, Json.child, Dict.lookupIn, parsed]

theorem keyOf_marker (key : String) (double : Number → Number) (ident : String) :
    keyOf key (parsed double (marker key (.scalar (.str ident)) rfl)) = ident := by
  have hchild := child_marker key double ⟨.scalar (.str ident), rfl⟩
  rw [keyOf, hchild]
  simp [parsed, Json.mapScalar, parsedScalar]

theorem propertyOf_marker (key : String) (double : Number → Number) (value : Payload) :
    propertyOf (parsed double (marker key value.value value.wellKeyed)) key = parsed double value := by
  have hchild := child_marker key double value
  unfold propertyOf
  split
  · rename_i found hfound
    rw [hchild, Option.some.injEq] at hfound
    subst hfound
    rfl
  rename_i hfound
  rw [hchild] at hfound
  cases hfound

/-! ## A snapshot -/

theorem mergeStep_node (double : Number → Number) (existing : Dict String Payload)
    (acc : Dict String Payload × Bool) (n : Node key) :
    ∃ held, (mergeStep key existing acc (parsed double n.payload)).1 = acc.1.set n.ident held ∧
      SameStable held (parsed double n.payload) ∧
      ((mergeStep key existing acc (parsed double n.payload)).2 = false →
        acc.2 = false ∧ existing.get? n.ident = some held) := by
  cases hget : existing.get? n.ident with
  | none =>
    have hstep : mergeStep key existing acc (parsed double n.payload) = (acc.1.set n.ident (parsed double n.payload), true) := by
      simp only [mergeStep, keyOf_node, hget]
    rw [hstep]
    exact ⟨_, rfl, .refl _, fun h => (by cases h)⟩
  | some current =>
    by_cases hsame : stableEquals current (parsed double n.payload) = true
    · have hstep : mergeStep key existing acc (parsed double n.payload) = (acc.1.set n.ident current, acc.2) := by
        simp only [mergeStep, keyOf_node, hget, hsame, if_true]
      rw [hstep]
      exact ⟨current, rfl, stableEquals_iff.mp hsame, fun h => ⟨h, rfl⟩⟩
    have hstep : mergeStep key existing acc (parsed double n.payload) =
        (acc.1.set n.ident (parsed double n.payload), true) := by
      simp only [mergeStep, keyOf_node, hget, hsame, if_false, Bool.false_eq_true]
    rw [hstep]
    exact ⟨_, rfl, .refl _, fun h => (by cases h)⟩

theorem mergeStep_fold (double : Number → Number) (existing : Dict String Payload) :
    ∀ (l : List (Node key)) (acc : Dict String Payload × Bool),
    (l.map Node.ident).Nodup →
    (∀ ident, ident ∉ l.map Node.ident →
      ((l.map fun n => parsed double n.payload).foldl (mergeStep key existing) acc).1.get? ident = acc.1.get? ident) ∧
    (∀ n ∈ l, ∃ held,
      ((l.map fun n => parsed double n.payload).foldl (mergeStep key existing) acc).1.get? n.ident = some held ∧
      SameStable held (parsed double n.payload)) ∧
    (((l.map fun n => parsed double n.payload).foldl (mergeStep key existing) acc).2 = false → acc.2 = false ∧
      ∀ n ∈ l, ∃ held, existing.get? n.ident = some held ∧ SameStable held (parsed double n.payload)) := by
  intro l
  induction l with
  | nil =>
    intro acc _
    exact ⟨fun _ _ => rfl, fun n hn => (by cases hn), fun h => ⟨h, fun n hn => (by cases hn)⟩⟩
  | cons m l ih =>
    intro acc hu
    rw [List.map_cons, List.nodup_cons] at hu
    obtain ⟨held, hset, hsame, hkept⟩ := mergeStep_node double existing acc m
    obtain ⟨hrest, hnodes, hflag⟩ := ih (mergeStep key existing acc (parsed double m.payload)) hu.2
    simp only [List.map_cons, List.foldl_cons]
    refine ⟨?_, ?_, ?_⟩
    · intro ident hident
      rw [List.mem_cons, not_or] at hident
      rw [hrest ident hident.2, hset, Dict.get?_set_ne _ _ (Ne.symm hident.1)]
    · intro n hn
      rcases List.mem_cons.mp hn with rfl | hn
      · exact ⟨held, by rw [hrest _ hu.1, hset, Dict.get?_set_self], hsame⟩
      · exact hnodes n hn
    intro h
    obtain ⟨hstep, hl⟩ := hflag h
    obtain ⟨hacc, hget⟩ := hkept hstep
    refine ⟨hacc, fun n hn => ?_⟩
    rcases List.mem_cons.mp hn with rfl | hn
    · exact ⟨held, hget, hsame⟩
    · exact hl n hn

theorem mergeKeyed_holds (double : Number → Number) (existing : Dict String Payload)
    (hu : (nodes.map Node.ident).Nodup) (ident : String) :
    Holds double (mergeKeyed key existing (nodes.map fun n => parsed double n.payload)) nodes ident := by
  obtain ⟨hrest, hnodes, hflag⟩ := mergeStep_fold double existing nodes (Dict.empty, false) hu
  unfold mergeKeyed
  simp only
  split
  · rename_i hkeep
    obtain ⟨-, hall⟩ := hflag hkeep.1
    refine holds_of hall (fun ident hident => ?_) ident
    -- as many keys as nodes, and every node's key among them: no other key is left
    by_contra hsome
    have hsub : nodes.map Node.ident ⊆ existing.keys := by
      intro i hi
      obtain ⟨n, hn, rfl⟩ := List.mem_map.mp hi
      obtain ⟨held, hget, -⟩ := hall n hn
      exact Dict.mem_keys.mpr ⟨held, hget⟩
    have hperm : (nodes.map Node.ident).Perm existing.keys := by
      apply (List.subperm_of_subset hu hsub).perm_of_length_le
      rw [hkeep.2, List.length_map, List.length_map]
    apply hident
    rw [hperm.mem_iff, Dict.mem_keys]
    exact Option.ne_none_iff_exists'.mp hsome
  · exact holds_of hnodes (fun ident hident => hrest ident hident) ident

theorem reuse_same (current incoming : Payload) : SameStable (reuse current incoming) incoming := by
  unfold reuse
  split
  · rename_i h
    exact stableEquals_iff.mp h
  · exact .refl _

theorem follows_snapshot (double : Number → Number) (s : DashboardState) (p : WorkspaceProjection) :
    Follows double (applySnapshot double s p) p where
  nodes
    | .lifecycle, ident => mergeKeyed_holds double s.lifecycles p.lifecyclesUnique ident
    | .enclosure, ident => mergeKeyed_holds double s.enclosures p.enclosuresUnique ident
    | .provider, ident => mergeKeyed_holds double s.providers p.providersUnique ident
  activeWorktreeGroups := reuse_same _ _
  metrics := reuse_same _ _
  analytics := reuse_same _ _

/-! ## Events of one kind -/

theorem collection_setCollection (s : DashboardState) (k k' : EntityKind) (collection : Dict String Payload) :
    (s.setCollection k collection).collection k' = if k = k' then collection else s.collection k' := by
  cases k <;> cases k' <;> rfl

theorem setCollection_self (s : DashboardState) (k : EntityKind) : s.setCollection k (s.collection k) = s := by
  cases k <;> rfl

theorem setCollection_twice (s : DashboardState) (k : EntityKind) (c c' : Dict String Payload) :
    (s.setCollection k c).setCollection k c' = s.setCollection k c' := by
  cases k <;> rfl

theorem name_mem_stateEvents (k : EntityKind) : k.name ∈ stateEvents := by
  cases k <;> simp [EntityKind.name, stateEvents]

theorem removed_mem_stateEvents (k : EntityKind) : k.removed ∈ stateEvents := by
  cases k <;> simp [EntityKind.removed, stateEvents]

theorem onMessage_of_reduce {double : Number → Number} {event : String} {data : Payload} (k : EntityKind)
    {reduced : Option (Dict String Payload)} (hmem : event ∈ stateEvents)
    (h : reduceDelta s event (parsed double data) = reduced.map (s.setCollection k)) :
    onMessage double s (.named event data) = s.setCollection k (reduced.getD (s.collection k)) := by
  rw [onMessage, if_pos hmem, applyDelta, h]
  cases reduced with
  | none => exact (setCollection_self s k).symm
  | some collection => rfl

theorem onMessage_upsert (double : Number → Number) (s : DashboardState) (k : EntityKind) (data : Payload) :
    onMessage double s (.named k.name data) =
      s.setCollection k ((upsertNode k.keyField (s.collection k) (parsed double data)).getD (s.collection k)) := by
  apply onMessage_of_reduce k (name_mem_stateEvents k)
  cases k <;> rfl

theorem onMessage_removed (double : Number → Number) (s : DashboardState) (k : EntityKind) (data : Payload) :
    onMessage double s (.named k.removed data) =
      s.setCollection k ((removeNode k.keyField (s.collection k) (parsed double data)).getD (s.collection k)) := by
  apply onMessage_of_reduce k (removed_mem_stateEvents k)
  cases k <;> rfl

theorem foldl_onMessage {ι : Type} (double : Number → Number) (k : EntityKind) (event : ι → DeltaEvent)
    (f : Dict String Payload → ι → Dict String Payload)
    (hstep : ∀ s i, onMessage double s (event i) = s.setCollection k (f (s.collection k) i)) :
    ∀ (l : List ι) (s : DashboardState),
    (l.map event).foldl (onMessage double) s = s.setCollection k (l.foldl f (s.collection k)) := by
  intro l
  induction l with
  | nil => intro s; exact (setCollection_self s k).symm
  | cons i l ih =>
    intro s
    rw [List.map_cons, List.foldl_cons, List.foldl_cons, hstep, ih, collection_setCollection, if_pos rfl, setCollection_twice]

theorem upsertNode_get (double : Number → Number) (c : Dict String Payload) (n : Node key) :
    (∃ held, ((upsertNode key c (parsed double n.payload)).getD c).get? n.ident = some held ∧
      SameStable held (parsed double n.payload)) ∧
    ∀ ident, ident ≠ n.ident → ((upsertNode key c (parsed double n.payload)).getD c).get? ident = c.get? ident := by
  unfold upsertNode
  rw [keyOf_node]
  cases hget : c.get? n.ident with
  | none =>
    simp only [Bool.false_eq_true, if_false, Option.getD_some]
    exact ⟨⟨_, Dict.get?_set_self .., .refl _⟩, fun ident hne => Dict.get?_set_ne _ _ (Ne.symm hne)⟩
  | some current =>
    by_cases hsame : stableEquals current (parsed double n.payload) = true
    · simp only [hsame, if_true, Option.getD_none]
      exact ⟨⟨current, hget, stableEquals_iff.mp hsame⟩, fun _ _ => trivial⟩
    · simp only [hsame, Bool.false_eq_true, if_false, Option.getD_some]
      exact ⟨⟨_, Dict.get?_set_self .., .refl _⟩, fun ident hne => Dict.get?_set_ne _ _ (Ne.symm hne)⟩

theorem foldl_upsertNode (double : Number → Number) :
    ∀ (l : List (Node key)) (c : Dict String Payload), (l.map Node.ident).Nodup →
    (∀ n ∈ l, ∃ held,
      (l.foldl (fun c n => (upsertNode key c (parsed double n.payload)).getD c) c).get? n.ident = some held ∧
      SameStable held (parsed double n.payload)) ∧
    ∀ ident, ident ∉ l.map Node.ident →
      (l.foldl (fun c n => (upsertNode key c (parsed double n.payload)).getD c) c).get? ident = c.get? ident := by
  intro l
  induction l with
  | nil =>
    intro c _
    exact ⟨fun n hn => (by cases hn), fun _ _ => rfl⟩
  | cons m l ih =>
    intro c hu
    rw [List.map_cons, List.nodup_cons] at hu
    obtain ⟨⟨held, hget, hsame⟩, hother⟩ := upsertNode_get double c m
    obtain ⟨hnodes, hrest⟩ := ih ((upsertNode key c (parsed double m.payload)).getD c) hu.2
    rw [List.foldl_cons]
    constructor
    · intro n hn
      rcases List.mem_cons.mp hn with rfl | hn
      · exact ⟨held, by rw [hrest _ hu.1, hget], hsame⟩
      · exact hnodes n hn
    intro ident hident
    rw [List.map_cons, List.mem_cons, not_or] at hident
    rw [hrest ident hident.2, hother ident hident.1]

theorem foldl_removeNode (key : String) (double : Number → Number) :
    ∀ (l : List String) (c : Dict String Payload) (ident : String),
    (l.foldl (fun c id => (removeNode key c (parsed double (marker key (.scalar (.str id)) rfl))).getD c) c).get? ident =
      if ident ∈ l then none else c.get? ident := by
  intro l
  induction l with
  | nil => intro c ident; simp
  | cons id l ih =>
    intro c ident
    have hstep : ((removeNode key c (parsed double (marker key (.scalar (.str id)) rfl))).getD c).get? ident =
        if ident = id then none else c.get? ident := by
      cases hget : c.get? id with
      | none =>
        have hnone : removeNode key c (parsed double (marker key (.scalar (.str id)) rfl)) = none := by
          simp [removeNode, keyOf_marker, hget]
        rw [hnone, Option.getD_none]
        by_cases hid : ident = id
        · rw [if_pos hid, hid, hget]
        · rw [if_neg hid]
      | some current =>
        have herase : removeNode key c (parsed double (marker key (.scalar (.str id)) rfl)) = some (c.erase id) := by
          simp [removeNode, keyOf_marker, hget]
        rw [herase, Option.getD_some, Dict.get?_erase]
    rw [List.foldl_cons, ih, hstep]
    by_cases hl : ident ∈ l
    · simp [hl]
    · by_cases hid : ident = id <;> simp [hl, hid]

/-! ## The diff of one kind -/

theorem get?_stableCollection (hu : (nodes.map Node.ident).Nodup) (ident : String) :
    (stableCollection nodes).get? ident =
      (nodes.find? fun n => decide (n.ident = ident)).map fun n => stableDump n.payload := Dict.get?_ofEntries_map hu ident

def sent (previousNodes : List (Node key)) (n : Node key) : Bool :=
  match previousNodes.find? fun m => decide (m.ident = n.ident) with
  | some m => !pythonEquals (stableDump m.payload) (stableDump n.payload)
  | none => true

theorem upsertDeltas_eq (name : String) (hp : (previousNodes.map Node.ident).Nodup)
    (hc : (currentNodes.map Node.ident).Nodup) :
    upsertDeltas name currentNodes (stableCollection previousNodes) (stableCollection currentNodes) =
      (currentNodes.filter (sent previousNodes)).map fun n => .named name n.payload := by
  have hentries : (Dict.ofEntries (currentNodes.map fun item => (item.ident, item))).entries =
      currentNodes.map fun item => (item.ident, item) := by
    apply Dict.entries_ofEntries
    simpa [List.map_map, Function.comp_def] using hc
  unfold upsertDeltas
  simp only [hentries, List.filter_map, List.map_map]
  congr 1
  apply List.filter_congr
  intro n hn
  simp only [Function.comp_apply, get?_stableCollection hp, get?_stableCollection hc, find?_ident hc hn, Option.map_some, sent]
  cases hfind : previousNodes.find? fun m => decide (m.ident = n.ident) <;> simp [pythonEqualsOpt]

theorem mem_removedIdents (hp : (previousNodes.map Node.ident).Nodup) (hc : (currentNodes.map Node.ident).Nodup) :
    ident ∈ removedIdents (stableCollection previousNodes) (stableCollection currentNodes) ↔
      ident ∈ previousNodes.map Node.ident ∧ ident ∉ currentNodes.map Node.ident := by
  unfold removedIdents
  rw [List.mem_insertionSort, List.mem_filter, Dict.mem_keys, ← Option.isSome_iff_exists, get?_stableCollection hp,
    get?_stableCollection hc, Option.isSome_map, Option.isNone_map, Option.isNone_iff_eq_none, find?_ident_none]
  apply and_congr_left
  intro _
  rw [Option.isSome_iff_ne_none, ne_eq, find?_ident_none, not_not]

theorem holds_diff (double : Number → Number) (hp : (previousNodes.map Node.ident).Nodup)
    (hc : (currentNodes.map Node.ident).Nodup)
    (htold : ∀ m ∈ previousNodes, ∀ n ∈ currentNodes, m.ident = n.ident → ToldApart m.payload n.payload)
    (h : ∀ ident, Holds double collection previousNodes ident) (ident : String) :
    Holds double
      ((removedIdents (stableCollection previousNodes) (stableCollection currentNodes)).foldl
        (fun c id => (removeNode key c (parsed double (marker key (.scalar (.str id)) rfl))).getD c)
        ((currentNodes.filter (sent previousNodes)).foldl
          (fun c n => (upsertNode key c (parsed double n.payload)).getD c) collection))
      currentNodes ident := by
  have hfilter : ((currentNodes.filter (sent previousNodes)).map Node.ident).Nodup := hc.sublist (List.filter_sublist.map _)
  obtain ⟨hsent, hother⟩ := foldl_upsertNode double _ collection hfilter
  apply holds_of
  · intro n hn
    rw [foldl_removeNode, if_neg fun hr => ((mem_removedIdents hp hc).mp hr).2 (List.mem_map_of_mem hn)]
    by_cases hs : sent previousNodes n = true
    · exact hsent n (List.mem_filter.mpr ⟨hn, hs⟩)
    -- not sent: the previous node of this id has an equal stable form
    have hnot : n.ident ∉ (currentNodes.filter (sent previousNodes)).map Node.ident := by
      intro hmem
      obtain ⟨n', hn', he⟩ := List.mem_map.mp hmem
      obtain ⟨hn', hs'⟩ := List.mem_filter.mp hn'
      have hfind := find?_ident hc hn'
      rw [he, find?_ident hc hn, Option.some.injEq] at hfind
      exact hs (hfind ▸ hs')
    rw [hother _ hnot]
    unfold sent at hs
    split at hs
    · rename_i m hfind
      have hident : m.ident = n.ident := by simpa using List.find?_some hfind
      have hm := List.mem_of_find?_eq_some hfind
      have hsame := (htold m hm n hn hident).iff.mp (by simpa using hs)
      obtain ⟨held, hget, hheld⟩ := (h m.ident).mem hp hm
      exact ⟨held, hident ▸ hget, hheld.trans (hsame.parsed double)⟩
    · exact absurd rfl hs
  · intro ident hident
    rw [foldl_removeNode]
    by_cases hr : ident ∈ removedIdents (stableCollection previousNodes) (stableCollection currentNodes)
    · rw [if_pos hr]
    have hnot : ident ∉ (currentNodes.filter (sent previousNodes)).map Node.ident := fun hmem =>
      hident ((List.filter_sublist.map _).subset hmem)
    rw [if_neg hr, hother _ hnot]
    apply (h ident).absent
    intro hprev
    exact hr ((mem_removedIdents hp hc).mpr ⟨hprev, hident⟩)

theorem foldl_collectionDeltas (double : Number → Number) (s : DashboardState) (k : EntityKind)
    {previousNodes currentNodes : List (Node k.keyField)} (hp : (previousNodes.map Node.ident).Nodup)
    (hc : (currentNodes.map Node.ident).Nodup) :
    (collectionDeltas k currentNodes (stableCollection previousNodes) (stableCollection currentNodes)).foldl
        (onMessage double) s =
      s.setCollection k
        ((removedIdents (stableCollection previousNodes) (stableCollection currentNodes)).foldl
          (fun c id => (removeNode k.keyField c (parsed double (marker k.keyField (.scalar (.str id)) rfl))).getD c)
          ((currentNodes.filter (sent previousNodes)).foldl
            (fun c n => (upsertNode k.keyField c (parsed double n.payload)).getD c) (s.collection k))) := by
  have hupserts := foldl_onMessage double k (fun n : Node k.keyField => .named k.name n.payload)
    (fun c n => (upsertNode k.keyField c (parsed double n.payload)).getD c) fun s n => onMessage_upsert double s k n.payload
  have hremovals := foldl_onMessage double k (fun id => .named k.removed (marker k.keyField (.scalar (.str id)) rfl))
    (fun c id => (removeNode k.keyField c (parsed double (marker k.keyField (.scalar (.str id)) rfl))).getD c)
    fun s id => onMessage_removed double s k _
  rw [collectionDeltas, upsertDeltas_eq k.name hp hc, removedDeltas, List.foldl_append, hupserts, hremovals,
    collection_setCollection, if_pos rfl, setCollection_twice]

/-! ## The diff of two projections -/

def TellsApart (p q : WorkspaceProjection) : Prop :=
  (∀ k ∈ EntityKind.all, ∀ m ∈ p.nodes k, ∀ n ∈ q.nodes k, m.ident = n.ident → ToldApart m.payload n.payload) ∧
    ToldApart p.metrics q.metrics ∧ ToldApart p.analytics q.analytics

instance (p q : WorkspaceProjection) : Decidable (TellsApart p q) := inferInstanceAs (Decidable (_ ∧ _ ∧ _))

/-- The same nodes under every key, the same groups and the same values, up to the volatile ages. -/
structure SameContent (p q : WorkspaceProjection) : Prop where
  nodes : ∀ k ident, Option.Rel (fun (m n : Node k.keyField) => SameStable m.payload n.payload) (p.node? k ident) (q.node? k ident)
  activeWorktreeGroups : p.activeWorktreeGroups = q.activeWorktreeGroups
  metrics : SameStable p.metrics q.metrics
  analytics : SameStable p.analytics q.analytics

theorem replaceValue_same (current incoming : Payload) :
    SameStable ((replaceValue current incoming).getD current) incoming := by
  unfold replaceValue
  split
  · rename_i h
    exact stableEquals_iff.mp h
  · exact .refl _

attribute [local simp] onMessage applyDelta reduceDelta

theorem foldl_groups (double : Number → Number) (c : Prop) [Decidable c] (s : DashboardState) (groups : List String) :
    (if c then [DeltaEvent.named "activeWorktreeGroups"
      (marker "activeWorktreeGroups" (groupsPayload groups).value (groupsPayload groups).wellKeyed)] else []).foldl
        (onMessage double) s =
      { s with activeWorktreeGroups :=
          if c then (replaceValue s.activeWorktreeGroups (parsed double (groupsPayload groups))).getD s.activeWorktreeGroups
          else s.activeWorktreeGroups } := by
  by_cases hc : c
  · simp only [hc, if_true, List.foldl_cons, List.foldl_nil, onMessage, stateEvents, List.mem_cons, true_or, or_true, applyDelta,
      reduceDelta, propertyOf_marker]
    cases replaceValue s.activeWorktreeGroups (parsed double (groupsPayload groups)) <;> rfl
  · simp [hc]

theorem foldl_metrics (double : Number → Number) (c : Prop) [Decidable c] (s : DashboardState) (data : Payload) :
    (if c then [DeltaEvent.named "metrics" data] else []).foldl (onMessage double) s =
      { s with metrics := if c then (replaceValue s.metrics (parsed double data)).getD s.metrics else s.metrics } := by
  by_cases hc : c
  · simp only [hc, if_true, List.foldl_cons, List.foldl_nil, onMessage, stateEvents, List.mem_cons, true_or, or_true, applyDelta,
      reduceDelta]
    cases replaceValue s.metrics (parsed double data) <;> rfl
  · simp [hc]

theorem foldl_analytics (double : Number → Number) (c : Prop) [Decidable c] (s : DashboardState) (data : Payload) :
    (if c then [DeltaEvent.named "analytics" data] else []).foldl (onMessage double) s =
      { s with analytics := if c then (replaceValue s.analytics (parsed double data)).getD s.analytics else s.analytics } := by
  by_cases hc : c
  · simp only [hc, if_true, List.foldl_cons, List.foldl_nil, onMessage, stateEvents, List.mem_cons, true_or, or_true, applyDelta,
      reduceDelta]
    cases replaceValue s.analytics (parsed double data) <;> rfl
  · simp [hc]

theorem whole_same (double : Number → Number) {held old new : Payload} (htold : ToldApart old new)
    (h : SameStable held (parsed double old)) :
    SameStable (if (!pythonEquals (stableDump old) (stableDump new)) = true then
      (replaceValue held (parsed double new)).getD held else held) (parsed double new) := by
  by_cases hsame : pythonEquals (stableDump old) (stableDump new) = true
  · rw [if_neg (by simp [hsame])]
    exact h.trans ((htold.iff.mp hsame).parsed double)
  · rw [if_pos (by simpa using hsame)]
    exact replaceValue_same held (parsed double new)

theorem foldl_wholeDeltas (htold : TellsApart p q) (h : FollowsValues double s p) :
    FollowsValues double ((wholeDeltas q (stableProjectionState p) (stableProjectionState q)).foldl (onMessage double) s) q ∧
      ∀ k, ((wholeDeltas q (stableProjectionState p) (stableProjectionState q)).foldl (onMessage double) s).collection k =
        s.collection k := by
  obtain ⟨-, hmetrics, hanalytics⟩ := htold
  rw [wholeDeltas, List.foldl_append, List.foldl_append, foldl_groups, foldl_metrics, foldl_analytics]
  refine ⟨⟨?_, whole_same double hmetrics h.metrics, whole_same double hanalytics h.analytics⟩, fun k => ?_⟩
  case refine_2 => cases k <;> rfl
  by_cases hg : p.activeWorktreeGroups = q.activeWorktreeGroups
  · simp only [stableProjectionState, hg, ne_eq, not_true_eq_false, if_false]
    exact hg ▸ h.activeWorktreeGroups
  · simp only [stableProjectionState, hg, ne_eq, not_false_eq_true, if_true]
    exact replaceValue_same _ _

def kindDeltas (p q : WorkspaceProjection) (k : EntityKind) : List DeltaEvent :=
  collectionDeltas k (q.nodes k) (stableCollection (p.nodes k)) (stableCollection (q.nodes k))

theorem diffProjection_eq (p q : WorkspaceProjection) :
    diffProjection (some p) q (some (stableProjectionState p)) (some (stableProjectionState q)) =
      kindDeltas p q .lifecycle ++ kindDeltas p q .enclosure ++ kindDeltas p q .provider ++
        wholeDeltas q (stableProjectionState p) (stableProjectionState q) := rfl

theorem follows_kind (htold : TellsApart p q) (k : EntityKind)
    (h : ∀ ident, Holds double (s.collection k) (p.nodes k) ident) :
    ∃ c, (kindDeltas p q k).foldl (onMessage double) s = s.setCollection k c ∧ ∀ ident, Holds double c (q.nodes k) ident :=
  ⟨_, foldl_collectionDeltas double s k (p.unique k) (q.unique k),
    holds_diff double (p.unique k) (q.unique k) (htold.1 k k.mem_all) h⟩

theorem FollowsValues.setCollection (h : FollowsValues double s p) (k : EntityKind) (c : Dict String Payload) :
    FollowsValues double (s.setCollection k c) p := by
  cases k <;> exact ⟨h.activeWorktreeGroups, h.metrics, h.analytics⟩

theorem follows_diff (htold : TellsApart p q) (h : Follows double s p) :
    Follows double ((diffProjection (some p) q (some (stableProjectionState p)) (some (stableProjectionState q))).foldl
      (onMessage double) s) q := by
  rw [diffProjection_eq, List.foldl_append, List.foldl_append, List.foldl_append]
  obtain ⟨lifecycles, hl, hlifecycles⟩ := follows_kind htold .lifecycle (h.nodes .lifecycle)
  obtain ⟨enclosures, he, henclosures⟩ := follows_kind htold .enclosure (s := s.setCollection .lifecycle lifecycles)
    (h.nodes .enclosure)
  obtain ⟨providers, hp, hproviders⟩ := follows_kind htold .provider
    (s := (s.setCollection .lifecycle lifecycles).setCollection .enclosure enclosures) (h.nodes .provider)
  rw [hl, he, hp]
  have hkept : FollowsValues double
      (((s.setCollection .lifecycle lifecycles).setCollection .enclosure enclosures).setCollection .provider providers) p :=
    ((h.toFollowsValues.setCollection _ _).setCollection _ _).setCollection _ _
  obtain ⟨hvalues, hcollection⟩ := foldl_wholeDeltas htold hkept
  refine ⟨hvalues, fun k ident => ?_⟩
  rw [hcollection]
  cases k with
  | lifecycle => exact hlifecycles ident
  | enclosure => exact henclosures ident
  | provider => exact hproviders ident

/-! ## When a diff is empty -/

theorem sent_eq_false :
    sent previousNodes n = false ↔ ∃ m, (previousNodes.find? fun m => decide (m.ident = n.ident)) = some m ∧
      pythonEquals (stableDump m.payload) (stableDump n.payload) = true := by
  cases hfind : previousNodes.find? fun m => decide (m.ident = n.ident) with
  | none => simp [sent, hfind]
  | some m => simp [sent, hfind]

theorem kindDeltas_eq_nil_iff (k : EntityKind) :
    kindDeltas p q k = [] ↔ (∀ n ∈ q.nodes k, sent (p.nodes k) n = false) ∧
      ∀ ident, ident ∈ (p.nodes k).map Node.ident → ident ∈ (q.nodes k).map Node.ident := by
  have hp := p.unique k
  have hq := q.unique k
  rw [kindDeltas, collectionDeltas, List.append_eq_nil_iff, upsertDeltas_eq _ hp hq, removedDeltas, List.map_eq_nil_iff,
    List.map_eq_nil_iff, List.filter_eq_nil_iff, List.eq_nil_iff_forall_not_mem]
  apply and_congr
  · exact forall₂_congr fun n _ => iff_of_eq (Bool.not_eq_true _)
  · simp only [mem_removedIdents hp hq, not_and, not_not]

theorem kindDeltas_eq_nil (htold : TellsApart p q) (k : EntityKind) :
    kindDeltas p q k = [] ↔ ∀ ident,
      Option.Rel (fun (m n : Node k.keyField) => SameStable m.payload n.payload) (p.node? k ident) (q.node? k ident) := by
  rw [kindDeltas_eq_nil_iff]
  constructor
  · intro ⟨hsent, hkept⟩ ident
    unfold WorkspaceProjection.node?
    cases hn : (q.nodes k).find? fun n => decide (n.ident = ident) with
    | none =>
      have hgone : ((p.nodes k).find? fun n => decide (n.ident = ident)) = none :=
        find?_ident_none.mpr fun hmem => find?_ident_none.mp hn (hkept ident hmem)
      rw [hgone]
      exact .none
    | some n =>
      have hident : n.ident = ident := by simpa using List.find?_some hn
      obtain ⟨m, hm, hsame⟩ := sent_eq_false.mp (hsent n (List.mem_of_find?_eq_some hn))
      have hmident : m.ident = n.ident := by simpa using List.find?_some hm
      rw [← hident, hm]
      exact .some ((htold.1 k k.mem_all m (List.mem_of_find?_eq_some hm) n (List.mem_of_find?_eq_some hn) hmident).iff.mp hsame)
  · intro h
    constructor
    · intro n hn
      have hrel := h n.ident
      rw [WorkspaceProjection.node?, WorkspaceProjection.node?, find?_ident (q.unique k) hn] at hrel
      cases hm : (p.nodes k).find? fun m => decide (m.ident = n.ident) with
      | none =>
        rw [hm] at hrel
        cases hrel
      | some m =>
        rw [hm] at hrel
        cases hrel with
        | some hsame => exact sent_eq_false.mpr ⟨m, hm, pythonEquals_of_sameStable hsame⟩
    · intro ident hmem
      by_contra hgone
      have hrel := h ident
      rw [WorkspaceProjection.node?, WorkspaceProjection.node?, find?_ident_none.mpr hgone] at hrel
      cases hm : (p.nodes k).find? fun m => decide (m.ident = ident) with
      | none => exact find?_ident_none.mp hm hmem
      | some m =>
        rw [hm] at hrel
        cases hrel

theorem wholeDeltas_eq_nil (htold : TellsApart p q) :
    wholeDeltas q (stableProjectionState p) (stableProjectionState q) = [] ↔
      p.activeWorktreeGroups = q.activeWorktreeGroups ∧ SameStable p.metrics q.metrics ∧ SameStable p.analytics q.analytics := by
  rw [← htold.2.1.iff, ← htold.2.2.iff]
  by_cases hg : p.activeWorktreeGroups = q.activeWorktreeGroups <;> simp [wholeDeltas, stableProjectionState, hg]

theorem diff_eq_nil (htold : TellsApart p q) :
    diffProjection (some p) q (some (stableProjectionState p)) (some (stableProjectionState q)) = [] ↔ SameContent p q := by
  rw [diffProjection_eq, List.append_eq_nil_iff, List.append_eq_nil_iff, List.append_eq_nil_iff, kindDeltas_eq_nil htold,
    kindDeltas_eq_nil htold, kindDeltas_eq_nil htold, wholeDeltas_eq_nil htold]
  constructor
  · intro ⟨⟨⟨hl, he⟩, hp⟩, hg, hm, ha⟩
    refine ⟨fun k => ?_, hg, hm, ha⟩
    cases k with
    | lifecycle => exact hl
    | enclosure => exact he
    | provider => exact hp
  · intro h
    exact ⟨⟨⟨h.nodes .lifecycle, h.nodes .enclosure⟩, h.nodes .provider⟩, h.activeWorktreeGroups, h.metrics, h.analytics⟩

end AgentsRemember.Dashboard
