import Mathlib.Data.List.Chain
import Mathlib.Data.List.TakeWhile
import AgentsRemember.Stream.MutationStream

/-!
# Which envelopes a subscriber sees

The retained envelopes and the queue of a subscriber are pieces of one chain,
each envelope naming the cursor of the one before it. An overflow breaks both
ends: the closed queue loses its two oldest envelopes, and the gap takes a
sequence number that no other subscriber ever gets.
-/

namespace AgentsRemember.Stream

open Lib

/-! ## Runs of a projector's stream -/

/-- A stream with the two flags of its projector: hydrated once and for all, and closed to new subscribers. -/
structure Projector (β : Type) where
  stream : MutationStream β
  hydrated : Bool
  closed : Bool

inductive Action (β : Type)
  | rebuild
  | hydrate
  | emit (value : β) (emittedAt gapAt : String)
  | subscribe (after : Nat)
  | detach (reader : Nat)
  | next (reader : Nat)
  | gap (reason : GapReason) (emittedAt : String)
  | close
  | closeSubscribers
  | release

section
variable {β : Type}

namespace Projector

def init (generation : String) : Projector β := ⟨⟨generation, 0, [], 0, []⟩, false, false⟩

/-- A cursor of this generation is first handed out by a page of the hydrated projector, and no closed projector is
looked up again. -/
def step (p : Projector β) : Action β → Option (Projector β)
  | .rebuild => if p.hydrated then none else some { p with stream := p.stream.resetProjection }
  | .hydrate => some { p with hydrated := true }
  | .emit value emittedAt gapAt => some { p with stream := p.stream.emit value emittedAt gapAt }
  | .subscribe after =>
    if p.hydrated && !p.closed then (p.stream.subscribe after).map fun s => { p with stream := s } else none
  | .detach i => (p.stream.readers[i]?).map fun r =>
      { p with stream := p.stream.setReader i { r with subscribed := false, stopped := true } }
  | .next i =>
    ((p.stream.readers[i]?).bind Reader.next).map fun r => { p with stream := p.stream.setReader i r }
  | .gap reason emittedAt => some { p with stream := p.stream.gap reason emittedAt, closed := true }
  | .close => some { p with closed := true }
  | .closeSubscribers => some { p with stream := p.stream.closeSubscribers }
  | .release =>
    if p.stream.readers.any Reader.subscribed then none
    else some { p with stream := p.stream.releaseProjection, closed := true }

end Projector

def streamSystem (β : Type) (generation : String) : System (Projector β) (Action β) :=
  ⟨Projector.init generation, Projector.step⟩

/-! ## Chains -/

def Follows (e e' : Envelope β) : Prop := e'.previousCursor = e.cursor

instance (e e' : Envelope β) : Decidable (Follows e e') := inferInstanceAs (Decidable (_ = _))

def Reader.received (r : Reader β) : List (Envelope β) := r.replay ++ r.taken.takeWhile fun e => !e.isGap

def ContiguousFor (p : Projector β) : Prop := ∀ r ∈ p.stream.readers, List.IsChain Follows r.received

/-- No envelope meets a full queue, or every subscriber is full and has received nothing so far. -/
def OverflowsTogether (p : Projector β) : Action β → Prop
  | .emit .. => (∀ r ∈ p.stream.readers, r.subscribed = true → r.queue.full = false) ∨
      ∀ r ∈ p.stream.readers, r.subscribed = true → r.queue.full = true ∧ r.replay = [] ∧ r.taken = []
  | _ => True

instance (p : Projector β) : (a : Action β) → Decidable (OverflowsTogether p a)
  | .emit .. => inferInstanceAs (Decidable (_ ∨ _))
  | .rebuild | .hydrate | .subscribe _ | .detach _ | .next _ | .gap .. | .close | .closeSubscribers | .release => .isTrue trivial

def Reader.flow (r : Reader β) : List (Envelope β) := r.taken ++ r.queue.items.filterMap Item.envelope?

def EndsAt (l : List (Envelope β)) (c : EventCursor) : Prop := ∀ e, l.getLast? = some e → e.cursor = c

structure Live (c : EventCursor) (r : Reader β) : Prop where
  chain : List.IsChain Follows (r.replay ++ r.flow)
  ends : EndsAt (r.replay ++ r.flow) c
  noGap : ∀ e ∈ r.flow, e.isGap = false

structure Gone (r : Reader β) : Prop where
  chain : List.IsChain Follows (r.replay ++ r.flow.takeWhile fun e => !e.isGap)

variable {l : List (Envelope β)} {e gap : Envelope β} {c c' : EventCursor} {r r' : Reader β} {s : MutationStream β}
  {p : Projector β}

attribute [local simp] Reader.put MutationStream.envelope Reader.flow Item.envelope?

theorem endsAt_append : EndsAt (l ++ [e]) e.cursor := by
  intro e' he
  rw [List.getLast?_concat] at he
  cases he
  rfl

theorem isChain_concat {R : Envelope β → Envelope β → Prop} (h : List.IsChain R l)
    (he : ∀ x, l.getLast? = some x → R x e) : List.IsChain R (l ++ [e]) := by
  rw [List.isChain_append]
  refine ⟨h, .singleton e, fun x hx y hy => ?_⟩
  have hy' : y = e := by simpa using hy.symm
  subst hy'
  exact he x hx

theorem takeWhile_of_noGap (h : ∀ e ∈ l, e.isGap = false) : (l.takeWhile fun e => !e.isGap) = l := by
  rw [List.takeWhile_eq_self_iff]
  intro e he
  rw [h e he]
  rfl

theorem Live.gone (h : Live c r) : Gone r := by
  refine ⟨?_⟩
  rw [takeWhile_of_noGap h.noGap]
  exact h.chain

theorem Gone.received (h : Gone r) : List.IsChain Follows r.received := by
  have hpre : (r.taken.takeWhile fun e => !e.isGap) <+: r.flow.takeWhile fun e => !e.isGap := by
    unfold Reader.flow
    rw [List.takeWhile_append]
    split
    · rename_i hlen
      rw [List.IsPrefix.eq_of_length (List.takeWhile_prefix _) hlen]
      exact List.prefix_append _ _
    · exact List.prefix_rfl
  obtain ⟨t, ht⟩ := hpre
  have hc := h.chain
  rw [← ht, ← List.append_assoc] at hc
  exact hc.left_of_append

/-! ## Retention -/

/-- The retained envelopes of a stream that has counted up to its sequence. -/
structure Retained (s : MutationStream β) : Prop where
  chain : List.IsChain (fun e e' => Follows e e' ∧ e'.sequence = e.sequence + 1) s.retention
  last : ∀ e, s.retention.getLast? = some e → e.cursor = s.eventCursor s.sequence ∧ e.sequence = s.sequence

theorem record_retention (s : MutationStream β) (e : Envelope β) :
    ∃ l, (s.record e).retention = l ++ [e] ∧ l <:+ s.retention := by
  unfold MutationStream.record MutationStream.retain
  dsimp only
  split
  · rename_i hlen
    refine ⟨s.retention.tail, ?_, List.tail_suffix _⟩
    apply List.tail_append_of_ne_nil
    intro hnil
    rw [hnil] at hlen
    simp [retentionLimit] at hlen
  · exact ⟨s.retention, rfl, List.suffix_refl _⟩

theorem retained_record (h : Retained s) (mutation : Mutation β) (emittedAt : String) :
    Retained (s.record (s.envelope mutation emittedAt)) := by
  obtain ⟨l, hl, t, ht⟩ := record_retention s (s.envelope mutation emittedAt)
  have hsuf : l <:+ s.retention := ⟨t, ht⟩
  refine ⟨?_, ?_⟩
  · rw [hl]
    refine isChain_concat (h.chain.suffix hsuf) fun x hx => ?_
    have hlast : s.retention.getLast? = some x := by
      rw [← ht, List.getLast?_append, hx]
      rfl
    obtain ⟨hc, hs⟩ := h.last x hlast
    exact ⟨hc.symm, by simp [hs]⟩
  intro e he
  rw [hl, List.getLast?_concat] at he
  cases he
  simp [MutationStream.eventCursor]

theorem isChain_filter_after (n : Nat) (h : List.IsChain (fun e e' => Follows e e' ∧ e'.sequence = e.sequence + 1) l) :
    (l.filter fun e => n < e.sequence) <:+ l := by
  induction l with
  | nil => exact List.suffix_refl _
  | cons e l ih =>
    have hl := h.tail
    by_cases he : n < e.sequence
    · -- every later envelope is after the cursor as well
      have hall : ∀ x ∈ e :: l, n < x.sequence := by
        have hmono : List.IsChain (fun a b : Envelope β => a.sequence < b.sequence) (e :: l) :=
          h.imp fun a b hab => by omega
        intro x hx
        rcases List.mem_cons.mp hx with rfl | hx
        · exact he
        · have hlt := hmono.rel_cons hx
          omega
      have hself : (e :: l).filter (fun e => n < e.sequence) = e :: l :=
        List.filter_eq_self.mpr fun x hx => decide_eq_true (hall x hx)
      exact ⟨[], hself⟩
    · rw [List.filter_cons_of_neg (by simpa using he)]
      exact (ih hl).trans (List.suffix_cons _ _)

theorem retainedAfter_suffix (h : Retained s) (n : Nat) : s.retainedAfter n <:+ s.retention :=
  isChain_filter_after n h.chain

/-! ## Readers -/

theorem flow_put (r : Reader β) (e : Envelope β) (h : r.queue.full = false) :
    (r.put (.envelope e)).flow = r.flow ++ [e] := by
  rw [Reader.flow, Reader.put, BoundedQueue.offer_of_lt (BoundedQueue.full_eq_false.mp h), List.filterMap_append,
    ← List.append_assoc]
  rfl

theorem live_put (h : Live c r) (hf : r.queue.full = false) (he : e.previousCursor = c) (hg : e.isGap = false) :
    Live e.cursor (r.put (.envelope e)) := by
  have hflow : (r.put (.envelope e)).replay ++ (r.put (.envelope e)).flow = (r.replay ++ r.flow) ++ [e] := by
    rw [flow_put r e hf, List.append_assoc]
    rfl
  refine ⟨?_, ?_, ?_⟩
  · rw [hflow]
    exact isChain_concat h.chain fun x hx => he.trans (h.ends x hx).symm
  · rw [hflow]
    exact endsAt_append
  intro x hx
  rw [flow_put r e hf] at hx
  rcases List.mem_append.mp hx with hx | hx
  · exact h.noGap x hx
  · rw [List.mem_singleton.mp hx]
    exact hg

theorem gone_offer (h : Live c r) (hg : e.isGap = true) : Gone ((r.put (.envelope e)).put .close).discard := by
  have hclose : ∀ q : BoundedQueue (Item β) subscriberQueueLimit,
      (q.offer .close).items.filterMap Item.envelope? = q.items.filterMap Item.envelope? := by
    intro q
    by_cases hq : q.items.length < subscriberQueueLimit
    · simp [BoundedQueue.offer_of_lt hq]
    · rw [BoundedQueue.offer_of_full (by have := q.bounded; omega)]
  have hflow : ((r.put (.envelope e)).put .close).discard.flow = (r.put (.envelope e)).flow := by
    simp only [Reader.flow, Reader.discard, Reader.put, hclose]
  refine ⟨?_⟩
  rw [hflow]
  change List.IsChain Follows (r.replay ++ _)
  by_cases hf : r.queue.full = true
  · have hsame : (r.put (.envelope e)).flow = r.flow := by
      simp [BoundedQueue.offer_of_full (BoundedQueue.full_eq_true.mp hf)]
    rw [hsame]
    exact h.gone.chain
  rw [flow_put r e (by simpa using hf), List.takeWhile_append_of_pos]
  · simpa [hg] using h.chain
  intro x hx
  rw [h.noGap x hx]
  rfl

theorem gone_close (h : Live c r) : Gone (r.put .close).discard := by
  have hflow : (r.put .close).discard.flow = r.flow := by
    by_cases hq : r.queue.items.length < subscriberQueueLimit
    · simp [Reader.discard, BoundedQueue.offer_of_lt hq]
    · have hb := r.queue.bounded
      simp [Reader.discard, BoundedQueue.offer_of_full (q := r.queue) (by omega)]
  refine ⟨?_⟩
  rw [hflow]
  exact h.gone.chain

theorem gone_overflow (h : Live c r) (hf : r.queue.full = true) (hr : r.replay = []) (ht : r.taken = [])
    (hg : gap.isGap = true) : Gone ((r.discard.putEvicting (.envelope gap)).putEvicting .close) := by
  have hitems := BoundedQueue.offerEvicting_two (x := Item.envelope gap) (y := .close) (by decide)
    (BoundedQueue.full_eq_true.mp hf)
  have hflow : ((r.discard.putEvicting (.envelope gap)).putEvicting .close).flow =
      (r.queue.items.drop 2).filterMap Item.envelope? ++ [gap] := by
    simp only [Reader.flow, Reader.discard, Reader.putEvicting, hitems, ht]
    simp
  have hrf : r.flow = r.queue.items.filterMap Item.envelope? := by rw [Reader.flow, ht, List.nil_append]
  have hsuf : (r.queue.items.drop 2).filterMap Item.envelope? <:+ r.flow := by
    rw [hrf]
    exact (List.drop_suffix 2 r.queue.items).filterMap _
  refine ⟨?_⟩
  rw [hflow, List.takeWhile_append_of_pos]
  · have hchain := h.chain
    rw [hr, List.nil_append] at hchain
    simpa [Reader.discard, Reader.putEvicting, hr, hg] using hchain.suffix hsuf
  intro x hx
  rw [h.noGap x (hsuf.subset hx)]
  rfl

theorem next_flow (h : r.next = some r') :
    r'.flow = r.flow ∧ r'.replay = r.replay ∧ (r'.subscribed = true → r.subscribed = true) := by
  unfold Reader.next at h
  split at h
  · cases h
  split at h
  · cases h
  · rename_i rest hq
    cases h
    refine ⟨?_, rfl, fun hs => by cases hs⟩
    rw [Reader.flow, Reader.flow, BoundedQueue.next?_items hq]
    rfl
  rename_i e rest hq
  have hflow : r.taken ++ [e] ++ rest.items.filterMap Item.envelope? = r.flow := by
    simp [BoundedQueue.next?_items hq]
  split at h
  · cases h
    exact ⟨hflow, rfl, fun hs => by cases hs⟩
  · cases h
    exact ⟨hflow, rfl, id⟩

theorem live_of_flow (h : Live c r) (hf : r'.flow = r.flow) (hr : r'.replay = r.replay) : Live c r' := by
  refine ⟨?_, ?_, ?_⟩
  · rw [hf, hr]
    exact h.chain
  · rw [hf, hr]
    exact h.ends
  · rw [hf]
    exact h.noGap

theorem gone_of_flow (h : Gone r) (hf : r'.flow = r.flow) (hr : r'.replay = r.replay) : Gone r' := by
  refine ⟨?_⟩
  rw [hf, hr]
  exact h.chain

/-! ## One step -/

structure ReaderInv (c : EventCursor) (r : Reader β) : Prop where
  live : r.subscribed = true → Live c r
  gone : r.subscribed = false → Gone r

theorem ReaderInv.toGone (h : ReaderInv c r) : Gone r := by
  cases hs : r.subscribed with
  | true => exact (h.live hs).gone
  | false => exact h.gone hs

structure ChainInv (p : Projector β) : Prop where
  retained : Retained p.stream
  readers : ∀ r ∈ p.stream.readers, ReaderInv (p.stream.eventCursor p.stream.sequence) r
  unhydrated : p.hydrated = false → p.stream.readers = []

theorem readerInv_gone (h : Gone r) (hs : r.subscribed = false) : ReaderInv c r where
  live := fun hsub => by rw [hs] at hsub; cases hsub
  gone := fun _ => h

theorem readerInv_replace (h : ReaderInv c r) (hf : r'.flow = r.flow) (hr : r'.replay = r.replay)
    (hs : r'.subscribed = true → r.subscribed = true) : ReaderInv c r' where
  live := fun hsub => live_of_flow (h.live (hs hsub)) hf hr
  gone := fun _ => gone_of_flow h.toGone hf hr

theorem readerInv_moved (h : ReaderInv c r) (hs : r.subscribed = false) :
    ReaderInv c' r := readerInv_gone (h.gone hs) hs

theorem readers_set {i : Nat} (h : ChainInv p) (hi : p.stream.readers[i]? = some r) (hf : r'.flow = r.flow)
    (hr : r'.replay = r.replay) (hs : r'.subscribed = true → r.subscribed = true) :
    ChainInv { p with stream := p.stream.setReader i r' } := by
  refine ⟨⟨h.retained.chain, h.retained.last⟩, fun x hx => ?_, fun hn => ?_⟩
  · rcases List.mem_or_eq_of_mem_set hx with hx | hx
    · exact h.readers x hx
    · rw [hx]
      exact readerInv_replace (h.readers r (List.mem_of_getElem? hi)) hf hr hs
  have hnil := h.unhydrated hn
  rw [hnil] at hi
  cases hi

theorem emit_eq (s : MutationStream β) (value : β) (emittedAt gapAt : String) :
    s.emit value emittedAt gapAt =
      (let e := s.envelope (.content value) emittedAt
       let gap := (s.record e).gapEnvelope .retentionOverflow gapAt
       { (if s.readers.any (fun r => r.subscribed && r.queue.full) then (s.record e).record gap else s.record e) with
         readers := s.readers.map (Reader.receive e gap) }) := by
  unfold MutationStream.emit MutationStream.publish
  rw [MutationStream.fanOut_none]

theorem readerInv_receive (gap : Envelope β) (h : ReaderInv c r) (hf : r.subscribed = true → r.queue.full = false)
    (he : e.previousCursor = c) (hg : e.isGap = false) : ReaderInv e.cursor (r.receive e gap) := by
  unfold Reader.receive
  by_cases hs : r.subscribed = true
  · have hlive := live_put (h.live hs) (hf hs) he hg
    simp only [hs, hf hs, Bool.not_true, Bool.false_eq_true, if_false]
    exact ⟨fun _ => hlive, fun hn => absurd hs (by simpa using hn)⟩
  have hs' : r.subscribed = false := by simpa using hs
  simp only [hs', Bool.not_false, if_true]
  exact readerInv_moved h hs'

theorem readerInv_overflow (h : ReaderInv c r)
    (hf : r.subscribed = true → r.queue.full = true ∧ r.replay = [] ∧ r.taken = []) (hg : gap.isGap = true) :
    ReaderInv c' (r.receive e gap) := by
  unfold Reader.receive
  by_cases hs : r.subscribed = true
  · obtain ⟨hfull, hr, ht⟩ := hf hs
    simp only [hs, hfull, Bool.not_true, Bool.false_eq_true, if_false, if_true]
    exact readerInv_gone (gone_overflow (h.live hs) hfull hr ht hg) rfl
  have hs' : r.subscribed = false := by simpa using hs
  simp only [hs', Bool.not_false, if_true]
  exact readerInv_moved h hs'

theorem chainInv_emit {value : β} {emittedAt gapAt : String} (h : ChainInv p)
    (hok : OverflowsTogether p (.emit value emittedAt gapAt)) :
    ChainInv { p with stream := p.stream.emit value emittedAt gapAt } := by
  have hret := retained_record h.retained (.content value) emittedAt
  refine ⟨?_, ?_, ?_⟩
  · rw [emit_eq]
    dsimp only
    split
    · have hgap := retained_record hret (.gap ((p.stream.record (p.stream.envelope (.content value) emittedAt)).eventCursor
        (p.stream.record (p.stream.envelope (.content value) emittedAt)).sequence) .retentionOverflow) gapAt
      exact ⟨hgap.chain, hgap.last⟩
    · exact ⟨hret.chain, hret.last⟩
  · rw [emit_eq]
    intro r' hr'
    obtain ⟨r, hr, rfl⟩ := List.mem_map.mp hr'
    rcases hok with hnone | hall
    · have hany : p.stream.readers.any (fun r => r.subscribed && r.queue.full) = false := by
        rw [List.any_eq_false]
        intro x hx
        by_cases hs : x.subscribed = true
        · simp [hs, hnone x hx hs]
        · simp [hs]
      simp only [hany, Bool.false_eq_true, if_false]
      have hinv := readerInv_receive (e := p.stream.envelope (.content value) emittedAt) ((p.stream.record
        (p.stream.envelope (.content value) emittedAt)).gapEnvelope .retentionOverflow gapAt) (h.readers r hr) (hnone r hr) rfl rfl
      simpa [MutationStream.eventCursor] using hinv
    · exact readerInv_overflow (h.readers r hr) (hall r hr) rfl
  · intro hn
    rw [emit_eq]
    simp [h.unhydrated hn]

theorem chainInv_subscribe {after : Nat} (h : ChainInv p) (hh : p.hydrated = true)
    (hs : p.stream.subscribe after = some s) : ChainInv { p with stream := s } := by
  unfold MutationStream.subscribe at hs
  split at hs
  · cases hs
  cases hs
  refine ⟨⟨h.retained.chain, h.retained.last⟩, fun r hr => ?_, fun hn => ?_⟩
  · rcases List.mem_append.mp hr with hr | hr
    · exact h.readers r hr
    rw [List.mem_singleton.mp hr]
    obtain ⟨t, ht⟩ := retainedAfter_suffix h.retained after
    have hchain : List.IsChain Follows (p.stream.retainedAfter after) :=
      (h.retained.chain.suffix ⟨t, ht⟩).imp fun a b hab => hab.1
    refine ⟨fun _ => ⟨?_, ?_, by simp [BoundedQueue.empty]⟩, fun hf => by cases hf⟩
    · simp only [Reader.flow, BoundedQueue.empty, List.filterMap_nil, List.append_nil]
      rw [List.isChain_map]
      exact hchain
    intro e he
    simp only [Reader.flow, BoundedQueue.empty, List.filterMap_nil, List.append_nil, List.getLast?_map] at he
    obtain ⟨x, hx, rfl⟩ := Option.map_eq_some_iff.mp he
    have hlast : p.stream.retention.getLast? = some x := by
      rw [← ht, List.getLast?_append, hx]
      rfl
    exact (h.retained.last x hlast).1
  · have hn' : p.hydrated = false := hn
    rw [hh] at hn'
    cases hn'

theorem chainInv_gap {reason : GapReason} {emittedAt : String} (h : ChainInv p) :
    ChainInv { p with stream := p.stream.gap reason emittedAt, closed := true } := by
  have hret := retained_record h.retained (.gap (p.stream.eventCursor p.stream.sequence) reason) emittedAt
  refine ⟨⟨hret.chain, hret.last⟩, fun r' hr' => ?_, fun hn => ?_⟩
  · obtain ⟨r, hr, rfl⟩ := List.mem_map.mp hr'
    by_cases hs : r.subscribed = true
    · simp only [hs, if_true]
      exact readerInv_gone (gone_offer ((h.readers r hr).live hs) rfl) rfl
    have hs' : r.subscribed = false := by simpa using hs
    simp only [hs', Bool.false_eq_true, if_false]
    exact readerInv_moved (h.readers r hr) hs'
  · simp [MutationStream.gap, h.unhydrated hn]

theorem chainInv_closeSubscribers (h : ChainInv p) : ChainInv { p with stream := p.stream.closeSubscribers } := by
  refine ⟨⟨h.retained.chain, h.retained.last⟩, fun r' hr' => ?_, fun hn => ?_⟩
  · obtain ⟨r, hr, rfl⟩ := List.mem_map.mp hr'
    by_cases hs : r.subscribed = true
    · simp only [hs, if_true]
      exact readerInv_gone (gone_close ((h.readers r hr).live hs)) rfl
    have hs' : r.subscribed = false := by simpa using hs
    simp only [hs', Bool.false_eq_true, if_false]
    exact readerInv_moved (h.readers r hr) hs'
  · simp [MutationStream.closeSubscribers, h.unhydrated hn]

theorem retained_nil (h : s.retention = []) : Retained s := by
  refine ⟨?_, ?_⟩
  · rw [h]
    exact .nil
  intro e he
  rw [h] at he
  cases he

theorem chainInv_step {p' : Projector β} {a : Action β} (h : ChainInv p) (hok : OverflowsTogether p a)
    (hs : p.step a = some p') : ChainInv p' := by
  cases a with
  | rebuild =>
    simp only [Projector.step] at hs
    split at hs
    · cases hs
    rename_i hh
    cases hs
    have hnil := h.unhydrated (by simpa using hh)
    refine ⟨retained_nil rfl, fun r hr => ?_, h.unhydrated⟩
    have hr' : r ∈ p.stream.readers := hr
    rw [hnil] at hr'
    cases hr'
  | hydrate =>
    cases hs
    exact ⟨h.retained, h.readers, fun hn => by cases hn⟩
  | emit =>
    cases hs
    exact chainInv_emit h hok
  | subscribe after =>
    simp only [Projector.step] at hs
    split at hs
    · rename_i hh
      obtain ⟨s, hsub, rfl⟩ := Option.map_eq_some_iff.mp hs
      rw [Bool.and_eq_true] at hh
      exact chainInv_subscribe h hh.1 hsub
    · cases hs
  | detach i =>
    obtain ⟨r, hr, rfl⟩ := Option.map_eq_some_iff.mp hs
    exact readers_set h hr rfl rfl fun hf => by cases hf
  | next i =>
    obtain ⟨r', hr', rfl⟩ := Option.map_eq_some_iff.mp hs
    obtain ⟨r, hr, hnext⟩ := Option.bind_eq_some_iff.mp hr'
    obtain ⟨hf, hrep, hsub⟩ := next_flow hnext
    exact readers_set h hr hf hrep hsub
  | gap =>
    cases hs
    exact chainInv_gap h
  | close =>
    cases hs
    exact ⟨h.retained, h.readers, h.unhydrated⟩
  | closeSubscribers =>
    cases hs
    exact chainInv_closeSubscribers h
  | release =>
    simp only [Projector.step] at hs
    split at hs
    · cases hs
    · cases hs
      exact ⟨retained_nil rfl, h.readers, h.unhydrated⟩

/-- **Every subscriber sees a contiguous chain**, in every run in which an envelope meets a full queue only when all
subscribers are full and have received nothing. -/
theorem subscribers_contiguous (generation : String) {p : Projector β}
    (h : Reachable (streamSystem β generation) OverflowsTogether p) : ContiguousFor p := by
  have hinv : ChainInv p := by
    refine h.invariant (I := ChainInv) ?_ ?_
    · refine ⟨retained_nil rfl, fun r hr => ?_, fun _ => rfl⟩
      cases hr
    · intro s a t hi hok hs
      exact chainInv_step hi hok hs
  intro r hr
  exact (hinv.readers r hr).toGone.received

end

def lateSubscriber : List (Action Nat) :=
  [.hydrate, .subscribe 0, .emit 0 "2026-08-01T10:00:00+00:00" "2026-08-01T10:00:00+00:00", .next 0, .subscribe 0,
    .emit 1 "2026-08-01T10:00:01+00:00" "2026-08-01T10:00:01+00:00", .next 1, .next 0, .gap .projectorRestart "2026-08-01T10:00:02+00:00",
    .next 0]

theorem late_subscriber_contiguous :
    ∃ p, checkedRun (streamSystem Nat "generation-1") OverflowsTogether (Projector.init "generation-1") lateSubscriber = some p ∧
      ContiguousFor p := by
  obtain ⟨p, hp⟩ : ∃ p, checkedRun (streamSystem Nat "generation-1") OverflowsTogether (Projector.init "generation-1")
      lateSubscriber = some p := Option.isSome_iff_exists.mp (by decide)
  exact ⟨p, hp, subscribers_contiguous "generation-1" (steps_of_checkedRun hp)⟩

/-! ## A slow and a fast subscriber -/

structure SlowAndFast (p : Projector Nat) (slow fast : Reader Nat) : Prop where
  readers : p.stream.readers = [slow, fast]
  subscribed : fast.subscribed = true
  running : fast.stopped = false
  drained : fast.queue.items = []
  noGap : ∀ e ∈ fast.taken, e.isGap = false

def tick : Action Nat := .emit 0 "2026-08-01T10:00:00+00:00" "2026-08-01T10:00:00+00:00"

def MutationStream.tickEnvelope (s : MutationStream Nat) : Envelope Nat := s.envelope (.content 0) "2026-08-01T10:00:00+00:00"

def MutationStream.tickGap (s : MutationStream Nat) : Envelope Nat :=
  (s.record s.tickEnvelope).gapEnvelope .retentionOverflow "2026-08-01T10:00:00+00:00"

theorem next_put {r : Reader Nat} {e : Envelope Nat} (hr : r.stopped = false) (hq : r.queue.items = [])
    (he : e.isGap = false) :
    ∃ r', (r.put (.envelope e)).next = some r' ∧ r'.queue.items = [] ∧ r'.taken = r.taken ++ [e] ∧
      r'.replay = r.replay ∧ r'.subscribed = r.subscribed ∧ r'.stopped = false := by
  have hitems : (r.queue.offer (.envelope e)).items = [.envelope e] := by
    rw [BoundedQueue.offer_of_lt (by rw [hq]; decide), hq]
    rfl
  refine ⟨{ r with queue := (r.queue.offer (.envelope e)).dropOldest, taken := r.taken ++ [e] }, ?_, ?_, rfl, rfl, rfl, hr⟩
  · simp [Reader.next, Reader.put, hr, BoundedQueue.next?, hitems, he]
  · simp [BoundedQueue.dropOldest, hitems]

theorem tick_taken {p : Projector Nat} {slow fast : Reader Nat} (h : SlowAndFast p slow fast) :
    ∃ p' fast', Steps (streamSystem Nat "generation-1") always p p' ∧
      SlowAndFast p' (slow.receive p.stream.tickEnvelope p.stream.tickGap) fast' ∧
      fast'.taken = fast.taken ++ [p.stream.tickEnvelope] ∧ fast'.replay = fast.replay ∧
      p'.stream.sequence = p.stream.sequence + if slow.subscribed && slow.queue.full then 2 else 1 := by
  have hempty : fast.queue.full = false := by
    apply BoundedQueue.full_eq_false.mpr
    rw [h.drained]
    decide
  have hfast : fast.receive p.stream.tickEnvelope p.stream.tickGap = fast.put (.envelope p.stream.tickEnvelope) := by
    simp [Reader.receive, h.subscribed, hempty]
  obtain ⟨fast', hnext, hdrained, htaken, hreplay, hsub, hrun⟩ :=
    next_put (e := p.stream.tickEnvelope) h.running h.drained rfl
  have hreaders : (p.stream.emit 0 "2026-08-01T10:00:00+00:00" "2026-08-01T10:00:00+00:00").readers =
      [slow.receive p.stream.tickEnvelope p.stream.tickGap, fast.put (.envelope p.stream.tickEnvelope)] := by
    rw [emit_eq, ← hfast, h.readers]
    rfl
  have hseq : (p.stream.emit 0 "2026-08-01T10:00:00+00:00" "2026-08-01T10:00:00+00:00").sequence =
      p.stream.sequence + if slow.subscribed && slow.queue.full then 2 else 1 := by
    rw [emit_eq, h.readers]
    by_cases hfull : (slow.subscribed && slow.queue.full) = true
    · simp [hfull, hempty, MutationStream.gapEnvelope, MutationStream.envelope]
    · simp [hfull, hempty, MutationStream.envelope]
  refine ⟨{ p with stream := (p.stream.emit 0 "2026-08-01T10:00:00+00:00" "2026-08-01T10:00:00+00:00").setReader 1 fast' },
    fast', ?_, ⟨?_, ?_, hrun, hdrained, ?_⟩, htaken, hreplay, hseq⟩
  · apply Steps.tail (i := .next 1)
    · exact .head (i := tick) trivial rfl .refl
    · trivial
    · simp [streamSystem, Projector.step, hreaders, hnext]
  · simp [MutationStream.setReader, hreaders]
  · rw [hsub, h.subscribed]
  intro e he
  rw [htaken] at he
  rcases List.mem_append.mp he with he | he
  · exact h.noGap e he
  · rw [List.mem_singleton.mp he]
    rfl

theorem slow_fills (n : Nat) (hn : n ≤ subscriberQueueLimit) :
    ∃ p slow fast, Reachable (streamSystem Nat "generation-1") always p ∧ SlowAndFast p slow fast ∧
      slow.subscribed = true ∧ slow.queue.items.length = n := by
  induction n with
  | zero =>
    have hrun : runFrom (streamSystem Nat "generation-1") (Projector.init "generation-1") [.hydrate, .subscribe 0, .subscribe 0] =
        some ⟨⟨"generation-1", 0, [], 0, [⟨.empty, true, [], [], false⟩, ⟨.empty, true, [], [], false⟩]⟩, true, false⟩ := rfl
    refine ⟨_, _, _, reachable_of_runFrom hrun, ⟨rfl, rfl, rfl, rfl, ?_⟩, rfl, rfl⟩
    intro e he
    cases he
  | succ n ih =>
    obtain ⟨p, slow, fast, hp, h, hsub, hlen⟩ := ih (by omega)
    obtain ⟨p', fast', hsteps, h', -, -, -⟩ := tick_taken h
    have hnf : slow.queue.full = false := BoundedQueue.full_eq_false.mpr (by omega)
    refine ⟨p', _, fast', hp.steps hsteps, h', ?_, ?_⟩
    · simp [Reader.receive, hsub, hnf, Reader.put]
    · simp [Reader.receive, hsub, hnf, Reader.put, BoundedQueue.offer_of_lt (q := slow.queue) (by omega), hlen]

/-- The gap of the slow subscriber's overflow takes the number between two envelopes of the fast one. -/
theorem overflow_leaves_hole : ¬ ∀ p, Reachable (streamSystem Nat "generation-1") always p → ContiguousFor p := by
  intro hall
  obtain ⟨p, slow, fast, hp, h, hsub, hlen⟩ := slow_fills subscriberQueueLimit (Nat.le_refl _)
  obtain ⟨p₁, fast₁, hs₁, h₁, ht₁, hr₁, hq₁⟩ := tick_taken h
  obtain ⟨p₂, fast₂, hs₂, h₂, ht₂, hr₂, -⟩ := tick_taken h₁
  have hchain := hall p₂ ((hp.steps hs₁).steps hs₂) fast₂ (by rw [h₂.readers]; simp)
  rw [Reader.received, takeWhile_of_noGap h₂.noGap, ht₂, ht₁, List.append_assoc, ← List.append_assoc] at hchain
  have hlink : Follows p.stream.tickEnvelope p₁.stream.tickEnvelope :=
    List.isChain_pair.mp hchain.right_of_append
  have hfull : slow.queue.full = true := BoundedQueue.full_eq_true.mpr hlen
  have hnum := congrArg EventCursor.sequence hlink
  simp [MutationStream.tickEnvelope, MutationStream.envelope, MutationStream.eventCursor, hq₁, hsub, hfull] at hnum

end AgentsRemember.Stream
