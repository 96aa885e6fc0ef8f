import AgentsRemember.Catalog.EvidenceSound
import AgentsRemember.Harness.Timeline
import AgentsRemember.Harness.TimelineSound

/-!
# Reading the timeline and the evidence in pages

Whatever the sizes of its items and the two budgets, a reader that asks on while
a page is cut comes to an end with every row of the ledger, and with every frame
that the bridge took after a position that is not older than its eviction floor.
-/

namespace AgentsRemember.Catalog

open Lib Harness

namespace Bridge

def evidencePage (wireBytes : EvidenceFrame → Nat) (b : Bridge) (afterSequence limit byteBudget : Int) :
    Except String EvidencePage :=
  if byteBudget < 1 then .error "evidence page byte budget must be positive"
  else
    let bounded := min evidencePageLimit (max 1 limit).toNat
    let cut := pageFrames wireBytes afterSequence bounded byteBudget.toNat b.evidence [] 0
    .ok ⟨cut.1, b.latestSequence, b.evictedBeforeSequence, cut.2⟩

def framePage (wireBytes : EvidenceFrame → Nat) (b : Bridge) (limit byteBudget afterSequence : Int) :
    List EvidenceFrame × Bool :=
  match b.evidencePage wireBytes afterSequence limit byteBudget with
  | .error _ => ([], true)
  | .ok page => (page.frames, page.truncated)

theorem pageFrames_eq_pageIn {wireBytes : EvidenceFrame → Nat} {start : Int} {limit budget : Nat} :
    ∀ {evidence frames : List EvidenceFrame} {used : Nat}, pageFrames wireBytes start limit budget evidence frames used =
      pageIn EvidenceFrame.sequence wireBytes start limit budget evidence frames used
  | [], _, _ => rfl
  | f :: rest, frames, used => by
    rw [pageFrames, pageIn, pageFrames_eq_pageIn, pageFrames_eq_pageIn]

end Bridge

/-! ## One bridge's buffer -/

/-- The frames of a bridge's life; a frame that is not later than the last one is refused. -/
def bufferSystem (limit : Nat) : System SessionEvidence EvidenceFrame :=
  ⟨{}, fun v f => (v.bridge.appendEvidence limit f).map fun bridge => { v with bridge := bridge, recorded := v.recorded ++ [f] }⟩

theorem bridgeOk_of_reachable {limit : Nat} {v : SessionEvidence} (h : Reachable (bufferSystem limit) always v) :
    BridgeOk v := by
  have hstart : BridgeOk {} := ⟨List.Pairwise.nil, by simp, ⟨[], rfl, by simp⟩, List.nodup_nil⟩
  refine h.invariant hstart ?_
  intro v f v' hv _ hs
  obtain ⟨bridge, hb, rfl⟩ := Option.map_eq_some_iff.mp hs
  exact (hv.append hb).2.1

section
variable {v : SessionEvidence}

theorem evidence_sorted (h : BridgeOk v) : v.bridge.evidence.Pairwise fun f g => f.sequence < g.sequence := by
  obtain ⟨evicted, hrecorded, -⟩ := h.evicted
  have hsorted := h.sorted
  rw [hrecorded, List.pairwise_append] at hsorted
  exact hsorted.2.1

theorem after_recorded (h : BridgeOk v) {start : Int} (hfloor : v.bridge.evictedBeforeSequence ≤ start) :
    after EvidenceFrame.sequence start v.recorded = after EvidenceFrame.sequence start v.bridge.evidence := by
  obtain ⟨evicted, hrecorded, hevicted⟩ := h.evicted
  rw [hrecorded, after, List.filter_append, List.filter_eq_nil_iff.mpr, List.nil_append]
  · rfl
  intro f hf
  have := hevicted f hf
  simp only [decide_eq_true_eq]
  omega

theorem readsAll_evidence (h : BridgeOk v) (wireBytes : EvidenceFrame → Nat) (limit : Int) {byteBudget : Int}
    (hbudget : 1 ≤ byteBudget) (start : Int) :
    ReadsAll EvidenceFrame.sequence (v.bridge.framePage wireBytes limit byteBudget) start
      (after EvidenceFrame.sequence start v.bridge.evidence) := by
  have hpage : v.bridge.framePage wireBytes limit byteBudget = fun start => pageIn EvidenceFrame.sequence wireBytes start
      (min evidencePageLimit (max 1 limit).toNat) byteBudget.toNat v.bridge.evidence [] 0 := by
    funext start
    rw [Bridge.framePage, Bridge.evidencePage, if_neg (by omega), ← Bridge.pageFrames_eq_pageIn]
  have hbound : 0 < min evidencePageLimit (max 1 limit).toNat := by
    rw [evidencePageLimit]
    omega
  rw [hpage]
  exact readsAll_pageIn hbound (evidence_sorted h) start

end

/-- What pages of at most `limit` items and `byteBudget` bytes give their readers. -/
structure PagesComplete (c : Harness.Config) (itemBytes : OperationTimelineItem → Nat) (evidenceLimit : Nat)
    (frameBytes : EvidenceFrame → Nat) (limit byteBudget : Int) : Prop where
  timeline : ∀ s, Reachable (authoritySystem c) always s →
    ReadsAll OperationTimelineItem.position (timelinePage c itemBytes s.ledger c.bridgeEpoch limit byteBudget) 0
      s.ledger.timelineItems
  rows : ∀ s, Reachable (authoritySystem c) always s →
    s.ledger.timelineItems.Perm (s.ledger.rows.map OperationRecord.timelineItem)
  timelineFrom : ∀ s, Reachable (authoritySystem c) always s → ∀ start,
    ReadsAll OperationTimelineItem.position (timelinePage c itemBytes s.ledger c.bridgeEpoch limit byteBudget) start
      (after OperationTimelineItem.position start s.ledger.timelineItems)
  evidence : ∀ v, Reachable (bufferSystem evidenceLimit) always v → ∀ start, v.bridge.evictedBeforeSequence ≤ start →
    ReadsAll EvidenceFrame.sequence (v.bridge.framePage frameBytes limit byteBudget) start
      (after EvidenceFrame.sequence start v.recorded)

/-- **All pages together.** Readers of the timeline and of the evidence end with every row and frame they asked for. -/
theorem pages_complete (c : Harness.Config) (itemBytes : OperationTimelineItem → Nat) (evidenceLimit : Nat)
    (frameBytes : EvidenceFrame → Nat) (limit byteBudget : Int) (hlimit : 1 ≤ limit) (hbudget : 1 ≤ byteBudget) :
    PagesComplete c itemBytes evidenceLimit frameBytes limit byteBudget := by
  refine ⟨?_, ?_, ?_, ?_⟩
  · intro s hs
    obtain ⟨hsound, hcounted⟩ := counted_of_reachable hs
    have hall := readsAll_timeline hsound.shape itemBytes hlimit hbudget 0
    rwa [after_eq_self fun i hi => timelineItems_positive hsound.shape hcounted hi] at hall
  · intro s _
    exact (List.perm_insertionSort _ _).map _
  · intro s hs start
    exact readsAll_timeline (counted_of_reachable hs).1.shape itemBytes hlimit hbudget start
  intro v hv start hfloor
  have hok := bridgeOk_of_reachable hv
  rw [after_recorded hok hfloor]
  exact readsAll_evidence hok frameBytes limit hbudget start

/-- One item a page, each larger than its budget. -/
theorem pages_complete_one : PagesComplete exampleConfig (fun _ => 512) 2 (fun _ => 512) 1 1 :=
  pages_complete exampleConfig (fun _ => 512) 2 (fun _ => 512) 1 1 (by decide) (by decide)

end AgentsRemember.Catalog
