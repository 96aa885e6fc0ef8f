import AgentsRemember.Inbox.Store

/-!
# Compaction and the fold

A compaction keeps or drops whole ids, so the fold of the log it leaves is the
old fold on the ids it keeps. What is left is no more than the cap, keeps every
pending row unless the pending rows alone exceed the cap, and has nothing more
for a second compaction at the same time.
-/

namespace AgentsRemember.Inbox

open Lib

/-- The fold that `reconcile_and_compact` compacts on: the reviewed rows are resolved in it. -/
def reviewedFold (clock : Clock) (log : InboxLog) (now : Stamp) (reasons : List (String × String)) :
    Dict String OperatorInboxEntry := (reconcileLoop (clock.format now) log (current log) reasons).2

/-- The rows that `reconcile_and_compact` returns. -/
def keptCurrent (clock : Clock) (log : InboxLog) (now : Stamp) (reasons : List (String × String)) :
    Dict String OperatorInboxEntry :=
  (reviewedFold clock log now reasons).filterKeys fun id =>
    decide (id ∈ inboxKeepIds clock (reviewedFold clock log now reasons) now.utc)

def pendingRows (cur : Dict String OperatorInboxEntry) : List OperatorInboxEntry := cur.values.filter fun e => !e.terminal

/-- What a compaction of a log with the fold `before` leaves, when it reads `reviewed`. -/
structure Compacted (clock : Clock) (now : Stamp) (before reviewed : Dict String OperatorInboxEntry) (log : InboxLog) :
    Prop where
  fold : current log = before.filterKeys fun id => decide (id ∈ inboxKeepIds clock reviewed now.utc)
  bounded : (current log).keys.length ≤ inboxMaxCurrentRows
  pending : ∀ id e, reviewed.get? id = some e → e.terminal = false → (current log).get? id = none →
    inboxMaxCurrentRows < (pendingRows reviewed).length ∧
    ∀ id' e', (current log).get? id' = some e' → e'.terminal = false → e.createdAt ≤ e'.createdAt
  again : compact clock log now = log
  reviewedAgain : reconcileAndCompact clock log now [] = log

/-! ## The ids that are kept -/

section
variable {clock : Clock} {cur : Dict String OperatorInboxEntry} {now : Int}

variable {rows : List OperatorInboxEntry} {e : OperatorInboxEntry}

theorem mem_newestFirst : e ∈ newestFirst rows ↔ e ∈ rows :=
  List.mem_insertionSort _

theorem length_newestFirst (rows : List OperatorInboxEntry) : (newestFirst rows).length = rows.length :=
  List.length_insertionSort _ rows

theorem newestFirst_split {n : Nat} {e' : OperatorInboxEntry} (he : e' ∈ (newestFirst rows).take n)
    (hd : e ∈ (newestFirst rows).drop n) : e.createdAt ≤ e'.createdAt := by
  have hsorted : (newestFirst rows).Pairwise fun a b => b.createdAt ≤ a.createdAt := by
    have : Std.Total fun a b : OperatorInboxEntry => b.createdAt ≤ a.createdAt := ⟨fun a b => le_total _ _⟩
    have : IsTrans OperatorInboxEntry fun a b => b.createdAt ≤ a.createdAt := ⟨fun a b c hab hbc => le_trans hbc hab⟩
    exact List.pairwise_insertionSort _ rows
  rw [← List.take_append_drop n (newestFirst rows), List.pairwise_append] at hsorted
  exact hsorted.2.2 e' he e hd

theorem length_keepIds : (inboxKeepIds clock cur now).length ≤ inboxMaxCurrentRows := by
  rw [inboxKeepIds, List.length_map]
  dsimp only
  split
  · rw [List.length_append, List.length_take, List.length_take]
    omega
  · omega

theorem keepIds_of_fits (hfit : (cur.values.filter fun e => keepInboxEntry clock e now).length ≤ inboxMaxCurrentRows)
    (he : e ∈ cur.values) (hk : keepInboxEntry clock e now = true) : e.id ∈ inboxKeepIds clock cur now := by
  rw [inboxKeepIds]
  dsimp only
  rw [if_neg (by omega)]
  exact List.mem_map_of_mem (List.mem_filter.mpr ⟨he, hk⟩)

theorem keep_of_pending (h : e.terminal = false) : keepInboxEntry clock e now = true := by
  have hs : e.state = .pending := by simpa [OperatorInboxEntry.terminal] using h
  rw [keepInboxEntry, hs]

theorem pendingRows_kept : (cur.values.filter fun e => keepInboxEntry clock e now).filter (fun e => !e.terminal) =
    pendingRows cur := by
  rw [List.filter_filter, pendingRows]
  refine List.filter_congr fun e _ => ?_
  cases h : e.terminal with
  | false =>
    rw [keep_of_pending h]
    rfl
  | true => rfl

theorem pending_dropped (hf : FiledById cur) (he : cur.get? e.id = some e) (ht : e.terminal = false)
    (hout : e.id ∉ inboxKeepIds clock cur now) :
    inboxMaxCurrentRows < (pendingRows cur).length ∧
    ∀ e', cur.get? e'.id = some e' → e'.id ∈ inboxKeepIds clock cur now → e'.terminal = false →
      e.createdAt ≤ e'.createdAt := by
  have hvalue : e ∈ cur.values := Dict.mem_values.mpr ⟨_, he⟩
  have hpending : e ∈ pendingRows cur := List.mem_filter.mpr ⟨hvalue, by rw [ht]; rfl⟩
  have hover : inboxMaxCurrentRows < (cur.values.filter fun e => keepInboxEntry clock e now).length := by
    by_contra hfit
    exact hout (keepIds_of_fits (Nat.le_of_not_lt hfit) hvalue (keep_of_pending ht))
  rw [inboxKeepIds] at hout
  dsimp only at hout
  rw [if_pos hover, pendingRows_kept, List.map_append, List.mem_append, not_or] at hout
  have htaken : e ∉ (newestFirst (pendingRows cur)).take inboxMaxCurrentRows := fun h => hout.1 (List.mem_map_of_mem h)
  have hleft : e ∈ (newestFirst (pendingRows cur)).drop inboxMaxCurrentRows := by
    have hmem := mem_newestFirst.mpr hpending
    rw [← List.take_append_drop inboxMaxCurrentRows (newestFirst (pendingRows cur)), List.mem_append] at hmem
    exact hmem.resolve_left htaken
  refine ⟨?_, ?_⟩
  · have hpos := List.length_pos_of_mem hleft
    rw [List.length_drop, length_newestFirst] at hpos
    omega
  intro e' he' hin ht'
  rw [inboxKeepIds] at hin
  dsimp only at hin
  rw [if_pos hover, pendingRows_kept] at hin
  obtain ⟨x, hx, hid⟩ := List.mem_map.mp hin
  have hsame : ∀ x ∈ cur.values, x.id = e'.id → x = e' := by
    intro x hx hid
    obtain ⟨k, hk⟩ := Dict.mem_values.mp hx
    have hkey : k = e'.id := (hf k x hk).symm.trans hid
    rw [hkey, he'] at hk
    exact (Option.some.inj hk).symm
  rcases List.mem_append.mp hx with hx | hx
  · have hrow := (List.mem_filter.mp (mem_newestFirst.mp (List.mem_of_mem_take hx))).1
    obtain rfl := hsame x hrow hid
    exact newestFirst_split hx hleft
  -- The rest of the cap goes to terminal rows.
  have hrow := List.mem_filter.mp (mem_newestFirst.mp (List.mem_of_mem_take hx))
  obtain rfl := hsame x (List.mem_filter.mp hrow.1).1 hid
  rw [ht'] at hrow
  cases hrow.2

end

section
variable {clock : Clock} {log : InboxLog} {now : Stamp}

theorem mem_keys_of_row {r : OperatorInboxEntry} (hr : r ∈ log) : r.id ∈ (current log).keys := by
  obtain ⟨e, he⟩ := Option.isSome_iff_exists.mp ((foldLog_isSome OperatorInboxEntry.id dominates).mpr ⟨r, hr, rfl⟩)
  exact Dict.mem_keys.mpr ⟨e, he⟩

theorem keepIds_all (hbound : (current log).keys.length ≤ inboxMaxCurrentRows)
    (hkeep : ∀ id e, (current log).get? id = some e → keepInboxEntry clock e now.utc = true) :
    ∀ id ∈ (current log).keys, id ∈ inboxKeepIds clock (current log) now.utc := by
  intro id hid
  obtain ⟨e, he⟩ := Dict.mem_keys.mp hid
  have hlen : (current log).values.length = (current log).keys.length := by simp [Dict.values, Dict.keys]
  have hfit := (List.length_filter_le (fun e => keepInboxEntry clock e now.utc) (current log).values).trans
    (hlen.trans_le hbound)
  have hmem := keepIds_of_fits hfit (Dict.mem_values.mpr ⟨id, he⟩) (hkeep id e he)
  rwa [(fold_mem he).2] at hmem

theorem compact_of_kept (h : ∀ id ∈ (current log).keys, id ∈ inboxKeepIds clock (current log) now.utc) :
    compact clock log now = log := by
  refine List.filter_eq_self.mpr fun r hr => ?_
  exact decide_eq_true (h r.id (mem_keys_of_row hr))

theorem reconcile_of_kept (h : ∀ id ∈ (current log).keys, id ∈ inboxKeepIds clock (current log) now.utc) :
    reconcileAndCompact clock log now [] = log := by
  unfold reconcileAndCompact
  dsimp only [reconcileLoop]
  rw [if_pos]
  exact List.all_eq_true.mpr fun id hid => decide_eq_true (h id hid)

end

/-! ## The reviewed rows -/

section
variable {now : String}

theorem reconcileLoop_kept {p : String → Bool} : ∀ {reasons : List (String × String)} {records : InboxLog}
    {cur : Dict String OperatorInboxEntry}, FiledById cur →
    (∀ id e, (reconcileLoop now records cur reasons).2.get? id = some e → e.state = .ladderResolved → p id = false) →
    (reconcileLoop now records cur reasons).2.filterKeys p = cur.filterKeys p
  | [], _, _, _, _ => rfl
  | (id, reason) :: reasons, records, cur, hf, hp => by
    rw [reconcileLoop] at hp ⊢
    cases he : cur.get? id with
    | none =>
      rw [he] at hp
      exact reconcileLoop_kept hf hp
    | some entry =>
      rw [he] at hp
      dsimp only at hp ⊢
      split
      · rename_i ht
        rw [if_pos ht] at hp
        exact reconcileLoop_kept hf hp
      rename_i ht
      rw [if_neg ht] at hp
      have hf' : FiledById (cur.set id (ladderResolve entry reason now)) := by
        intro id' e h
        rw [Dict.get?_set] at h
        split at h
        · rename_i hid
          cases h
          exact (hf id entry he).trans hid
        · exact hf id' e h
      obtain ⟨-, -, -, -, hstay⟩ := @reconcileLoop_spec now reasons (records ++ [ladderResolve entry reason now]) _ hf'
      have hid : p id = false := hp id _ (hstay id _ (Dict.get?_set_self ..) rfl) rfl
      rw [reconcileLoop_kept hf' hp]
      refine Dict.ext ?_
      show (Dict.setIn id _ cur.entries).filter (fun e => p e.1) = cur.entries.filter fun e => p e.1
      rw [setIn_filter, hid]
      rfl

theorem reconcileLoop_row : ∀ {reasons : List (String × String)} {records : InboxLog}
    {cur : Dict String OperatorInboxEntry} {id : String} {e : OperatorInboxEntry},
    (reconcileLoop now records cur reasons).2.get? id = some e → cur.get? id = some e ∨ e.state = .ladderResolved
  | [], _, _, _, _, h => .inl h
  | (id', reason) :: reasons, records, cur, id, e, h => by
    rw [reconcileLoop] at h
    split at h
    · exact reconcileLoop_row h
    rename_i entry _
    split at h
    · exact reconcileLoop_row h
    rcases reconcileLoop_row h with h | h
    · rw [Dict.get?_set] at h
      split at h
      · obtain rfl := Option.some.inj h
        exact .inr rfl
      · exact .inl h
    · exact .inr h

end

/-! ## The compactions -/

section
variable {clock : Clock} {now : Stamp} {before reviewed : Dict String OperatorInboxEntry} {log : InboxLog}

theorem kept_before (hf : FiledById reviewed)
    (hrow : ∀ id e, reviewed.get? id = some e → before.get? id = some e ∨ e.state = .ladderResolved) {id : String}
    (hid : id ∈ inboxKeepIds clock reviewed now.utc) :
    ∃ e, reviewed.get? id = some e ∧ before.get? id = some e ∧ keepInboxEntry clock e now.utc = true := by
  obtain ⟨e, he, rfl, hk⟩ := keepIds_mem hid
  obtain ⟨k, hget⟩ := Dict.mem_values.mp he
  obtain rfl := hf k e hget
  refine ⟨e, hget, (hrow _ e hget).resolve_right ?_, hk⟩
  intro hs
  rw [keepInboxEntry, hs] at hk
  cases hk

theorem compacted_of_fold (hf : FiledById reviewed)
    (hrow : ∀ id e, reviewed.get? id = some e → before.get? id = some e ∨ e.state = .ladderResolved)
    (hfold : current log = before.filterKeys fun id => decide (id ∈ inboxKeepIds clock reviewed now.utc)) :
    Compacted clock now before reviewed log := by
  have hget : ∀ id e, (current log).get? id = some e → id ∈ inboxKeepIds clock reviewed now.utc ∧ before.get? id = some e := by
    intro id e h
    rw [hfold, Dict.get?_filterKeys] at h
    split at h
    · rename_i hid
      exact ⟨of_decide_eq_true hid, h⟩
    · cases h
  have hbound : (current log).keys.length ≤ inboxMaxCurrentRows := by
    refine ((List.subperm_of_subset (current log).nodup fun id hid => ?_).length_le).trans
      (@length_keepIds clock reviewed now.utc)
    obtain ⟨e, he⟩ := Dict.mem_keys.mp hid
    exact (hget id e he).1
  have hall : ∀ id ∈ (current log).keys, id ∈ inboxKeepIds clock (current log) now.utc := by
    refine keepIds_all hbound fun id e he => ?_
    obtain ⟨hid, hb⟩ := hget id e he
    obtain ⟨e', -, hb', hk⟩ := kept_before hf hrow hid
    rw [hb] at hb'
    obtain rfl := Option.some.inj hb'
    exact hk
  refine ⟨hfold, hbound, ?_, compact_of_kept hall, reconcile_of_kept hall⟩
  intro id e he ht hnone
  obtain rfl := hf id e he
  have hout : e.id ∉ inboxKeepIds clock reviewed now.utc := by
    intro hid
    obtain ⟨e', -, hb, -⟩ := kept_before hf hrow hid
    rw [hfold, Dict.get?_filterKeys, if_pos (decide_eq_true hid), hb] at hnone
    cases hnone
  obtain ⟨hcap, hold⟩ := pending_dropped hf he ht hout
  refine ⟨hcap, fun id' e' he' ht' => ?_⟩
  obtain ⟨hid', hb'⟩ := hget id' e' he'
  obtain ⟨e'', hr, hb, -⟩ := kept_before hf hrow hid'
  rw [hb'] at hb
  obtain rfl := Option.some.inj hb
  obtain rfl := hf id' e' hr
  exact hold e' hr hid' ht'

theorem current_filter (log : InboxLog) (p : String → Bool) :
    current (log.filter fun r => p r.id) = (current log).filterKeys p := foldLog_filter _ _ p log

theorem filterKeys_of_keys {d : Dict String OperatorInboxEntry} {p : String → Bool} (h : ∀ id ∈ d.keys, p id = true) :
    d.filterKeys p = d :=
  Dict.ext (List.filter_eq_self.mpr fun e he => h e.1 (List.mem_map_of_mem he))

theorem current_reconcile (clock : Clock) (log : InboxLog) (now : Stamp) (reasons : List (String × String)) :
    current (reconcileAndCompact clock log now reasons) =
      (current log).filterKeys fun id => decide (id ∈ inboxKeepIds clock (reviewedFold clock log now reasons) now.utc) := by
  unfold reconcileAndCompact
  dsimp only
  split
  · rename_i hall
    exact (filterKeys_of_keys fun id hid => List.all_eq_true.mp hall id hid).symm
  obtain ⟨more, hmore, hfiled, hladder, -⟩ :=
    @reconcileLoop_spec (clock.format now) reasons log _ (filedById_current log)
  have hnil : more.filter (fun r => decide (r.id ∈ inboxKeepIds clock (reviewedFold clock log now reasons) now.utc)) = [] := by
    refine List.filter_eq_nil_iff.mpr fun r hr hin => ?_
    obtain ⟨e, he, hs⟩ := hladder r hr
    obtain ⟨e', hr', -, hk⟩ := @kept_before clock now (reviewedFold clock log now reasons) _ hfiled (fun _ _ h => .inl h) _
      (of_decide_eq_true hin)
    rw [he] at hr'
    obtain rfl := Option.some.inj hr'
    rw [keepInboxEntry, hs] at hk
    cases hk
  rw [hmore, List.filter_append]
  show current (_ ++ more.filter fun r => decide (r.id ∈ inboxKeepIds clock (reviewedFold clock log now reasons) now.utc)) = _
  rw [hnil, List.append_nil]
  exact current_filter log fun id => decide (id ∈ inboxKeepIds clock (reviewedFold clock log now reasons) now.utc)

end

/-- **Compaction commutes with the fold**, on its own and after a review; the reviewed rows that come back are the fold of
the log that is left. -/
theorem compaction_commutes (clock : Clock) (log : InboxLog) (now : Stamp) (reasons : List (String × String)) :
    Compacted clock now (current log) (current log) (compact clock log now) ∧
    Compacted clock now (current log) (reviewedFold clock log now reasons) (reconcileAndCompact clock log now reasons) ∧
    keptCurrent clock log now reasons = current (reconcileAndCompact clock log now reasons) := by
  obtain ⟨-, -, hfiled, -, -⟩ := @reconcileLoop_spec (clock.format now) reasons log _ (filedById_current log)
  have hrow : ∀ id e, (reviewedFold clock log now reasons).get? id = some e →
      (current log).get? id = some e ∨ e.state = .ladderResolved := fun _ _ h => reconcileLoop_row h
  refine ⟨?_, ?_, ?_⟩
  · refine compacted_of_fold (filedById_current log) (fun _ _ h => .inl h) ?_
    exact current_filter log fun id => decide (id ∈ inboxKeepIds clock (current log) now.utc)
  · exact compacted_of_fold hfiled hrow (current_reconcile clock log now reasons)
  rw [current_reconcile]
  refine reconcileLoop_kept (filedById_current log) fun id e he hs => decide_eq_false fun hid => ?_
  obtain ⟨e', hr, -, hk⟩ := @kept_before clock now (reviewedFold clock log now reasons) _ hfiled (fun _ _ h => .inl h) id hid
  rw [he] at hr
  obtain rfl := Option.some.inj hr
  rw [keepInboxEntry, hs] at hk
  cases hk

end AgentsRemember.Inbox
