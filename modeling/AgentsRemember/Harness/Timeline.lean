import Mathlib.Data.List.Sort
import AgentsRemember.Harness.Simulation
import AgentsRemember.Lib.Paging

/-!
# The operation timeline

The ledger's rows in pages, without the bodies. Rows have distinct positive
ordinals, so the pages of a ledger together are each of its rows once.
-/

namespace AgentsRemember.Harness

open Lib

structure OperationTimelineItem where
  operationId : String
  kind : ControlOperationKind
  source : Option SubmissionSource
  state : SubmissionLifecycleState
  sequence : Nat
  submittedAt : String
  updatedAt : String
  acceptedAt : Option String
  payloadDigestPresent : Bool
  vendorCorrelationId : Option String := none

structure OperationTimeline where
  bridgeEpoch : String
  latestSequence : Nat
  evictedBeforeSequence : Nat
  truncated : Bool
  items : List OperationTimelineItem

def maxOperationTimelinePage : Nat := 256

def OperationRecord.timelineItem (r : OperationRecord) : OperationTimelineItem :=
  { operationId := r.ref.operationId
    kind := r.ref.kind
    source := r.source
    state := r.state
    sequence := r.ref.sequence
    submittedAt := r.submittedAt
    updatedAt := r.updatedAt
    acceptedAt := r.acceptedAt
    payloadDigestPresent := r.payloadDigest.isSome
    vendorCorrelationId := r.vendorCorrelationId }

def OperationTimelineItem.position (i : OperationTimelineItem) : Int := i.sequence

def SubmissionLedger.timelineItems (l : SubmissionLedger) : List OperationTimelineItem :=
  (l.rows.insertionSort fun a b => a.sequence ≤ b.sequence).map OperationRecord.timelineItem

def operationTimeline (c : Config) (itemBytes : OperationTimelineItem → Nat) (l : SubmissionLedger)
    (expectedBridgeEpoch : String) (afterSequence limit byteBudget : Int) : Except String OperationTimeline :=
  match c.requireEpoch (some expectedBridgeEpoch) with
  | .error e => .error e
  | .ok () =>
    if limit < 1 ∨ byteBudget < 1 then .error "operation timeline requires positive limit and byte budget"
    else
      let page := pageIn OperationTimelineItem.position itemBytes afterSequence (min maxOperationTimelinePage limit.toNat)
        byteBudget.toNat l.timelineItems [] 0
      .ok
        { bridgeEpoch := c.bridgeEpoch
          latestSequence := l.sequence
          evictedBeforeSequence := l.evictedBeforeSequence
          truncated := page.2
          items := page.1 }

def timelinePage (c : Config) (itemBytes : OperationTimelineItem → Nat) (l : SubmissionLedger) (expectedBridgeEpoch : String)
    (limit byteBudget afterSequence : Int) : List OperationTimelineItem × Bool :=
  match operationTimeline c itemBytes l expectedBridgeEpoch afterSequence limit byteBudget with
  | .error _ => ([], true)
  | .ok page => (page.items, page.truncated)

/-! ## Ordinals -/

namespace Lane

/-- Every record has a positive ordinal. -/
def Counted (v : Lane) : Prop := ∀ n r, v.record n = some r → 0 < n

section
variable {v w : Lane} {r r' : OperationRecord} {m : Move}

theorem Counted.put (h : v.Counted) (hs : v.Shape) (hw : v.Writes r r') : (v.put r').Counted := by
  refine forall_put h ?_
  rw [hw.seq]
  exact h _ _ (hs.known_ordinal hw.known)

theorem Counted.enter (h : v.Counted) (hf : v.Fresh r) : (v.enter r).Counted := by
  refine forall_put h ?_
  rw [hf.next]
  exact Nat.succ_pos _

theorem Counted.effect (hs : v.Shape) (h : v.Counted) (hm : v.enabled m) : (v.effect m).Counted := by
  cases m with
  | enrol r => exact h.enter hm.1
  | refuse r => exact h.enter hm.1
  | evict | ask | forget | idle | look | stop => exact h
  | withdraw | adopt | dismiss | note | resolve | observe | complete | decline | bar | claim | requeue | blur
  | accept | finish => exact h.put hs hm.1

end

end Lane

variable {c : Config} {s : Authority}

theorem counted_of_reachable (h : Reachable (authoritySystem c) always s) : (s.lane c).Sound ∧ (s.lane c).Counted := by
  have hstart : (Authority.init.lane c).Counted := by
    intro n r hn
    cases hn
  refine Steps.simulated (f := Authority.lane c) (I := fun v => v.Sound ∧ v.Counted)
    (fun s a t hs ht => Authority.step_moves hs.1 ht) ?_ h ⟨Authority.sound_init, hstart⟩
  intro s a v m w _ _ hv _ hw
  obtain ⟨hm, rfl⟩ := Lane.step_eq_some.mp hw
  exact ⟨hv.1.step hw, hv.2.effect hv.1.shape hm⟩

/-! ## The rows -/

variable {l : SubmissionLedger} {i : OperationTimelineItem}

theorem nodup_sequences (h : l.Filled) : (l.rows.map OperationRecord.sequence).Nodup := by
  have hrows : l.rows.Nodup := by
    refine List.Nodup.of_map OperationRecord.key ?_
    rw [h.rows_map_key]
    exact l.records.nodup
  refine hrows.map_on fun r hr r' hr' heq => ?_
  have hobject := (h.of_mem_rows hr).2
  rw [heq, (h.of_mem_rows hr').2, Option.some.injEq] at hobject
  exact hobject.symm

theorem mem_timelineItems : i ∈ l.timelineItems ↔ ∃ r ∈ l.rows, r.timelineItem = i := by
  simp only [SubmissionLedger.timelineItems, List.mem_map, List.mem_insertionSort]

theorem timelineItems_sorted (hs : (s.lane c).Shape) :
    s.ledger.timelineItems.Pairwise fun i j => i.position < j.position := by
  have : Std.Total fun a b : OperationRecord => a.sequence ≤ b.sequence := ⟨fun a b => le_total _ _⟩
  have : IsTrans OperationRecord fun a b => a.sequence ≤ b.sequence := ⟨fun a b c hab hbc => le_trans hab hbc⟩
  have hle := List.pairwise_insertionSort (fun a b : OperationRecord => a.sequence ≤ b.sequence) s.ledger.rows
  have hperm := List.perm_insertionSort (fun a b : OperationRecord => a.sequence ≤ b.sequence) s.ledger.rows
  have hne := List.pairwise_map.mp ((hperm.map OperationRecord.sequence).nodup_iff.mpr (nodup_sequences (Authority.filled_of_shape hs)))
  refine List.pairwise_map.mpr ((hle.and hne).imp fun hab => ?_)
  exact Int.ofNat_lt.mpr (Nat.lt_of_le_of_ne hab.1 hab.2)

theorem timelineItems_positive (hs : (s.lane c).Shape) (hc : (s.lane c).Counted) (hi : i ∈ s.ledger.timelineItems) :
    0 < i.position := by
  obtain ⟨r, hr, rfl⟩ := mem_timelineItems.mp hi
  exact Int.ofNat_lt.mpr (hc r.sequence r ((Authority.filled_of_shape hs).of_mem_rows hr).2)

theorem readsAll_timeline (hs : (s.lane c).Shape) (itemBytes : OperationTimelineItem → Nat) {limit byteBudget : Int}
    (hlimit : 1 ≤ limit) (hbudget : 1 ≤ byteBudget) (start : Int) :
    ReadsAll OperationTimelineItem.position (timelinePage c itemBytes s.ledger c.bridgeEpoch limit byteBudget) start
      (after OperationTimelineItem.position start s.ledger.timelineItems) := by
  have hpage : timelinePage c itemBytes s.ledger c.bridgeEpoch limit byteBudget = fun start =>
      pageIn OperationTimelineItem.position itemBytes start (min maxOperationTimelinePage limit.toNat) byteBudget.toNat
        s.ledger.timelineItems [] 0 := by
    funext start
    rw [timelinePage, operationTimeline, Config.requireEpoch, if_pos rfl]
    dsimp only
    rw [if_neg (by omega)]
  have hbound : 0 < min maxOperationTimelinePage limit.toNat := by
    rw [maxOperationTimelinePage]
    omega
  rw [hpage]
  exact readsAll_pageIn hbound (timelineItems_sorted hs) start

end AgentsRemember.Harness
