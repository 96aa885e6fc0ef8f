import AgentsRemember.Stream.ChainSound

/-!
# How a removed subscriber is told to stop

An overflow makes room for its gap and the close sentinel, the two other
removals do not: whatever no longer fits in a queue is lost.
-/

namespace AgentsRemember.Stream

open Lib

section
variable {β : Type}

def Reader.drain : Nat → Reader β → Reader β
  | 0, r => r
  | n + 1, r =>
    match r.next with
    | none => r
    | some r' => r'.drain n

/-- The sentinel is last, and reading the queue to its end stops the event stream. -/
def Reader.ToldToStop (r : Reader β) : Prop :=
  r.queue.items.getLast? = some .close ∧ (r.drain r.queue.items.length).stopped = true

variable {r r' : Reader β} {p : Projector β}

theorem next_queue (h : r.next = some r') :
    ∃ x, r.queue.items = x :: r'.queue.items ∧ (x = .close → r'.stopped = true) := by
  unfold Reader.next at h
  split at h
  · cases h
  split at h
  · cases h
  · rename_i rest hq
    cases h
    exact ⟨.close, BoundedQueue.next?_items hq, fun _ => rfl⟩
  rename_i e rest hq
  refine ⟨.envelope e, ?_, fun hc => by cases hc⟩
  split at h <;> cases h <;> exact BoundedQueue.next?_items hq

theorem next_eq_none (hq : r.queue.items ≠ []) (h : r.next = none) : r.stopped = true := by
  by_contra hs
  obtain ⟨x, rest, hx⟩ := List.exists_cons_of_ne_nil hq
  cases x with
  | close => simp [Reader.next, hs, BoundedQueue.next?, hx] at h
  | envelope e => by_cases hg : e.isGap = true <;> simp [Reader.next, hs, BoundedQueue.next?, hx, hg] at h

theorem drain_of_stopped (h : r.stopped = true) (n : Nat) : (r.drain n).stopped = true := by
  cases n with
  | zero => exact h
  | succ n => simp [Reader.drain, Reader.next, h]

theorem drain_stops : ∀ (n : Nat) (r : Reader β), r.queue.items.length = n → r.queue.items.getLast? = some .close →
    (r.drain n).stopped = true := by
  intro n
  induction n with
  | zero =>
    intro r hn hlast
    rw [List.length_eq_zero_iff.mp hn] at hlast
    cases hlast
  | succ n ih =>
    intro r hn hlast
    rw [Reader.drain]
    cases hnext : r.next with
    | none => exact next_eq_none (List.ne_nil_of_length_eq_add_one hn) hnext
    | some r' =>
      obtain ⟨x, hx, hstop⟩ := next_queue hnext
      rw [hx] at hn hlast
      cases hrest : r'.queue.items with
      | nil =>
        -- the item just read was the last one, so it was the sentinel
        rw [hrest, List.getLast?_singleton, Option.some.injEq] at hlast
        exact drain_of_stopped (hstop hlast) n
      | cons y rest =>
        apply ih r' (by simpa using hn)
        rw [hrest] at hlast ⊢
        rw [← hlast, List.getLast?_cons_cons]

theorem toldToStop_iff : r.ToldToStop ↔ r.queue.items.getLast? = some .close :=
  ⟨fun h => h.1, fun h => ⟨h, drain_stops _ r rfl h⟩⟩

/-! ## The three removals -/

/-- What takes subscribers out of the stream other than their own readers. -/
inductive Removal (β : Type)
  | gap (reason : GapReason) (emittedAt : String)
  | closeSubscribers
  | publish (e : Envelope β) (gapAt : String)

def MutationStream.remove (s : MutationStream β) : Removal β → MutationStream β
  | .gap reason emittedAt => s.gap reason emittedAt
  | .closeSubscribers => s.closeSubscribers
  | .publish e gapAt => s.publish e gapAt

/-- Whether all that a removal offers fits in a queue of `n` items. -/
def Removal.Fits : Removal β → Nat → Prop
  | .gap .., n => n + 2 ≤ subscriberQueueLimit
  | .closeSubscribers, n => n + 1 ≤ subscriberQueueLimit
  | .publish .., _ => True

/-- The sentinel is only ever offered to a queue that leaves the stream. -/
def MutationStream.EnvelopesQueued (s : MutationStream β) : Prop :=
  ∀ r ∈ s.readers, r.subscribed = true → Item.close ∉ r.queue.items

def Removal.apply (s : MutationStream β) : Removal β → Reader β → Reader β
  | .gap reason emittedAt, r =>
    if r.subscribed then ((r.put (.envelope (s.gapEnvelope reason emittedAt))).put .close).discard else r
  | .closeSubscribers, r => if r.subscribed then (r.put .close).discard else r
  | .publish e gapAt, r => r.receive e ((s.record e).gapEnvelope .retentionOverflow gapAt)

attribute [local simp] Removal.apply Reader.receive Reader.discard

theorem remove_readers (s : MutationStream β) (k : Removal β) : (s.remove k).readers = s.readers.map (k.apply s) := by
  cases k with
  | gap => rfl
  | closeSubscribers => rfl
  | publish e gapAt =>
    simp only [MutationStream.remove, MutationStream.publish, MutationStream.fanOut_none]
    rfl

variable {s : MutationStream β}

theorem apply_told {k : Removal β} (hsub : r.subscribed = true) (hq : Item.close ∉ r.queue.items)
    (hrem : (k.apply s r).subscribed = false) : (k.apply s r).ToldToStop ↔ k.Fits r.queue.items.length := by
  rw [toldToStop_iff]
  cases k with
  | gap =>
    simp only [Removal.apply, hsub, if_true]
    apply BoundedQueue.getLast?_offer_two
    · intro h
      cases h
    · exact hq
  | closeSubscribers =>
    simp only [Removal.apply, hsub, if_true]
    exact BoundedQueue.getLast?_offer hq
  | publish e gapAt =>
    by_cases hfull : r.queue.full = true
    · simp only [Removal.apply, Reader.receive, hsub, hfull, Bool.not_true, Bool.false_eq_true, if_false, if_true, Removal.Fits,
        iff_true]
      have htwo := BoundedQueue.offerEvicting_two (x := Item.envelope ((s.record e).gapEnvelope .retentionOverflow gapAt))
        (y := Item.close) (by decide) (BoundedQueue.full_eq_true.mp hfull)
      simp [Reader.putEvicting, htwo]
    · simp [hsub, hfull, Reader.put] at hrem

/-- **A removed subscriber is told to stop** exactly when all that its removal offers it still fits in its queue. -/
theorem removed_told_iff_fits {s : MutationStream β} (hs : s.EnvelopesQueued) (k : Removal β) {i : Nat} {r r' : Reader β}
    (hr : s.readers[i]? = some r) (hsub : r.subscribed = true) (hr' : (s.remove k).readers[i]? = some r')
    (hrem : r'.subscribed = false) : r'.ToldToStop ↔ k.Fits r.queue.items.length := by
  rw [remove_readers, List.getElem?_map, hr] at hr'
  cases hr'
  exact apply_told hsub (hs r (List.mem_of_getElem? hr) hsub) hrem

def oneReader (items : List (Item Nat)) (h : items.length ≤ subscriberQueueLimit) : MutationStream Nat :=
  ⟨"generation-1", 0, [], 0, [⟨⟨items, h⟩, true, [], [], false⟩]⟩

theorem closed_while_empty :
    ∃ r', ((oneReader [] (by decide)).remove .closeSubscribers).readers[0]? = some r' ∧ r'.ToldToStop :=
  ⟨_, rfl, (removed_told_iff_fits (s := oneReader [] (by decide)) (k := .closeSubscribers) (i := 0)
    (by simp [MutationStream.EnvelopesQueued, oneReader]) rfl rfl rfl rfl).mpr (by decide : 0 + 1 ≤ subscriberQueueLimit)⟩

/-! ## Reachable streams queue envelopes only -/

theorem envelopesQueued_set {i : Nat} (h : s.EnvelopesQueued) (hi : s.readers[i]? = some r)
    (hs : r'.subscribed = true → r.subscribed = true) (hq : ∀ x ∈ r'.queue.items, x ∈ r.queue.items) :
    (s.setReader i r').EnvelopesQueued := by
  intro x hx hsub
  rcases List.mem_or_eq_of_mem_set hx with hx | rfl
  · exact h x hx hsub
  · exact fun hc => h r (List.mem_of_getElem? hi) (hs hsub) (hq _ hc)

theorem envelopesQueued_remove (h : s.EnvelopesQueued) (k : Removal β) : (s.remove k).EnvelopesQueued := by
  intro x hx hsub
  rw [remove_readers] at hx
  obtain ⟨r, hr, rfl⟩ := List.mem_map.mp hx
  by_cases hs : r.subscribed = true
  · cases k with
    | gap => simp [hs] at hsub
    | closeSubscribers => simp [hs] at hsub
    | publish e gapAt =>
      by_cases hfull : r.queue.full = true
      · simp [hs, hfull, Reader.putEvicting] at hsub
      · have hlt := BoundedQueue.full_eq_false.mp (by simpa using hfull)
        simp [hs, hfull, Reader.put, BoundedQueue.offer_of_lt hlt, h r hr hs]
  cases k with
  | gap => simp [hs] at hsub
  | closeSubscribers => simp [hs] at hsub
  | publish => simp [hs] at hsub

theorem envelopesQueued_subscribe {s' : MutationStream β} {after : Nat} (h : s.EnvelopesQueued)
    (hs : s.subscribe after = some s') : s'.EnvelopesQueued := by
  unfold MutationStream.subscribe at hs
  split at hs
  · cases hs
  cases hs
  intro r hr
  rcases List.mem_append.mp hr with hr | hr
  · exact h r hr
  · rw [List.mem_singleton.mp hr]
    simp [BoundedQueue.empty]

theorem envelopesQueued_step {p' : Projector β} {a : Action β} (h : p.stream.EnvelopesQueued) (hs : p.step a = some p') :
    p'.stream.EnvelopesQueued := by
  cases a with
  | rebuild =>
    simp only [Projector.step] at hs
    split at hs
    · cases hs
    · cases hs
      exact h
  | hydrate =>
    cases hs
    exact h
  | emit value emittedAt gapAt =>
    cases hs
    exact envelopesQueued_remove h (.publish _ gapAt)
  | subscribe after =>
    simp only [Projector.step] at hs
    split at hs
    · obtain ⟨s, hsub, rfl⟩ := Option.map_eq_some_iff.mp hs
      exact envelopesQueued_subscribe h hsub
    · cases hs
  | detach i =>
    obtain ⟨r, hr, rfl⟩ := Option.map_eq_some_iff.mp hs
    exact envelopesQueued_set h hr (fun hf => by cases hf) fun _ hx => hx
  | next i =>
    obtain ⟨r', hr', rfl⟩ := Option.map_eq_some_iff.mp hs
    obtain ⟨r, hr, hnext⟩ := Option.bind_eq_some_iff.mp hr'
    obtain ⟨-, -, hsub⟩ := next_flow hnext
    obtain ⟨x, hx, -⟩ := next_queue hnext
    refine envelopesQueued_set h hr hsub fun y hy => ?_
    rw [hx]
    exact List.mem_cons_of_mem x hy
  | gap reason emittedAt =>
    cases hs
    exact envelopesQueued_remove h (.gap reason emittedAt)
  | close =>
    cases hs
    exact h
  | closeSubscribers =>
    cases hs
    exact envelopesQueued_remove h .closeSubscribers
  | release =>
    simp only [Projector.step] at hs
    split at hs
    · cases hs
    · cases hs
      exact h

theorem reachable_envelopesQueued {generation : String} (h : Reachable (streamSystem β generation) always p) :
    p.stream.EnvelopesQueued := by
  refine h.invariant (I := fun p => p.stream.EnvelopesQueued) ?_ ?_
  · intro r hr
    cases hr
  · intro s a t hi _ hs
    exact envelopesQueued_step hi hs

end

/-- A full queue loses the sentinel of every subscriber that the stream closes. -/
theorem full_queue_not_told :
    ¬ ∀ p : Projector Nat, Reachable (streamSystem Nat "generation-1") always p → ∀ (k : Removal Nat) (i : Nat) r r',
      p.stream.readers[i]? = some r → r.subscribed = true → (p.stream.remove k).readers[i]? = some r' →
      r'.subscribed = false → r'.ToldToStop := by
  intro hall
  obtain ⟨p, slow, fast, hp, h, hsub, hlen⟩ := slow_fills subscriberQueueLimit (Nat.le_refl _)
  have hq := reachable_envelopesQueued hp slow (by rw [h.readers]; simp) hsub
  have htold := hall p hp .closeSubscribers 0 slow ((slow.put .close).discard) (by rw [h.readers]; rfl) hsub
    (by simp [MutationStream.remove, MutationStream.closeSubscribers, h.readers, hsub]) rfl
  have hlast := (BoundedQueue.getLast?_offer hq).mp htold.1
  omega

end AgentsRemember.Stream
