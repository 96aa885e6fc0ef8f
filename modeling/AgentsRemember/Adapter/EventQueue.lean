import AgentsRemember.Lib.System
import Mathlib.Algebra.GroupWithZero.Nat

/-!
# The Codex event queue

A full queue sheds its oldest delta, or its oldest event where it holds no delta.
What it sheds is counted, and a notice carries the count across. A notice is an
event itself: one that is shed takes the count that it carries with it.
-/

namespace AgentsRemember.Adapter.CodexEvents

open Lib

def loadShedDeltaMethods : List String :=
  ["item/agentMessage/delta", "item/plan/delta", "item/reasoning/summaryTextDelta", "item/reasoning/summaryPartAdded",
    "item/reasoning/textDelta", "item/commandExecution/outputDelta", "item/fileChange/patchUpdated"]

/-- What the raw part of an event says. -/
inductive Raw where
  | method (codexMethod : Option String)
  | loadShed (droppedEvents : Nat) (reason degraded : String)
deriving DecidableEq

def Raw.codexMethod : Raw → Option String
  | method codexMethod => codexMethod
  | loadShed .. => some "ar/load-shed"

structure AdapterEvent where
  sequence : Nat
  kind : String
  raw : Raw
deriving DecidableEq

def AdapterEvent.delta (e : AdapterEvent) : Bool := e.raw.codexMethod.any (loadShedDeltaMethods.contains ·)

def isDelta (candidate : Option AdapterEvent) : Bool := candidate.any AdapterEvent.delta

/-- The adapter's sequence and the queue; `none` is the sentinel. What was offered and delivered is a ghost. -/
structure World where
  snapshot : Bool
  sequence : Nat
  queue : List (Option AdapterEvent)
  dropped : Nat
  offered : Nat
  delivered : List AdapterEvent
  closed : Bool
  ended : Bool
deriving DecidableEq

def loadShedNotice (sequence count : Nat) : AdapterEvent :=
  ⟨sequence, "codex-notification",
    .loadShed count "the consumer fell behind; the oldest delta events were shed to keep the bridge live"
      (toString count ++ " evidence events shed under load")⟩

def evictIndex (held : List (Option AdapterEvent)) : Nat := (held.findIdx? isDelta).getD 0

def World.evictForSpace (w : World) : World :=
  { w with
    queue := w.queue.eraseIdx (evictIndex w.queue)
    dropped := if (w.queue[evictIndex w.queue]?.join).isSome then w.dropped + 1 else w.dropped }

/-- `while qsize > room: evict`; each pass takes one event, so that the length is fuel enough. -/
def World.makeRoom (room : Nat) : Nat → World → World
  | 0, w => w
  | fuel + 1, w => if room < w.queue.length then makeRoom room fuel w.evictForSpace else w

def World.flushNotice (limit : Nat) (w : World) : World :=
  if w.dropped = 0 ∨ limit ≤ w.queue.length then w
  else if w.snapshot then
    { w with
      sequence := w.sequence + 1
      dropped := 0
      queue := w.queue ++ [some (loadShedNotice (w.sequence + 1) w.dropped)] }
  else w

def World.put (limit : Nat) (event : Option AdapterEvent) (w : World) : World :=
  let roomy := w.makeRoom (limit - 1) w.queue.length
  { roomy with queue := roomy.queue ++ [event] }.flushNotice limit

def World.offer (limit : Nat) (w : World) : Option AdapterEvent → World
  | none => ((w.makeRoom (limit - 2) w.queue.length).flushNotice limit).put limit none
  | some event => w.put limit (some event)

/-- `emit` is the adapter's `_emit`, `resume` the consumer's return from a yield. -/
inductive Action where
  | start
  | emit (kind : String) (codexMethod : Option String)
  | close
  | take
  | resume
deriving DecidableEq

def World.step (limit : Nat) (w : World) : Action → Option World
  | .start => some { w with snapshot := true }
  | .emit kind codexMethod =>
    if w.snapshot then
      some ({ w with sequence := w.sequence + 1, offered := w.offered + 1 }.offer limit (some ⟨w.sequence + 1, kind, .method codexMethod⟩))
    else none
  | .close => some { (w.offer limit none) with closed := true }
  | .take =>
    match w.ended, w.queue with
    | false, some event :: rest => some { w with queue := rest, delivered := w.delivered ++ [event] }
    | false, none :: rest => some { w with queue := rest, ended := true }
    | _, _ => none
  | .resume => some (w.flushNotice limit)

def system (limit : Nat) : System World Action where
  init := ⟨false, 0, [], 0, 0, [], false, false⟩
  step := World.step limit

/-! ## What an eviction takes -/

variable {limit room : Nat} {w t : World}

theorem evict_splits (h : w.queue ≠ []) : ∃ a x b, w.queue = a ++ x :: b ∧
    w.evictForSpace = { w with queue := a ++ b, dropped := if x.isSome then w.dropped + 1 else w.dropped } ∧
    (isDelta x = true ∨ a = [] ∧ ∀ y ∈ w.queue, isDelta y = false) := by
  obtain ⟨i, hi, hvictim⟩ : ∃ i, ∃ hi : i < w.queue.length, evictIndex w.queue = i ∧
      (isDelta w.queue[i] = true ∨ i = 0 ∧ ∀ y ∈ w.queue, isDelta y = false) := by
    unfold evictIndex
    cases hfind : w.queue.findIdx? isDelta with
    | none => exact ⟨0, List.length_pos_iff.mpr h, rfl, .inr ⟨rfl, List.findIdx?_eq_none_iff.mp hfind⟩⟩
    | some i =>
      obtain ⟨hi, hdelta, -⟩ := List.findIdx?_eq_some_iff_getElem.mp hfind
      exact ⟨i, hi, rfl, .inl hdelta⟩
  refine ⟨w.queue.take i, w.queue[i], w.queue.drop (i + 1), by simp, ?_, ?_⟩
  · simp [World.evictForSpace, hvictim.1, List.eraseIdx_eq_take_drop_succ, hi]
  · exact hvictim.2.imp id fun ⟨h0, hall⟩ => ⟨by simp [h0], hall⟩

theorem evict_length (h : w.queue ≠ []) : w.evictForSpace.queue.length + 1 = w.queue.length := by
  obtain ⟨a, x, b, hq, he, -⟩ := evict_splits h
  simp [hq, he]
  omega

/-- **Eviction rule.** What each single eviction keeps holds of the queue with room. -/
theorem makeRoom_rule {P : World → Prop} (hP : ∀ w : World, room < w.queue.length → P w → P w.evictForSpace) :
    ∀ {fuel : Nat} {w : World}, w.queue.length ≤ fuel → P w →
      P (w.makeRoom room fuel) ∧ (w.makeRoom room fuel).queue.length ≤ room := by
  intro fuel
  induction fuel with
  | zero =>
    intro w hlength h
    exact ⟨h, by rw [World.makeRoom]; omega⟩
  | succ fuel ih =>
    intro w hlength h
    rw [World.makeRoom]
    split
    · rename_i hroom
      have hone := evict_length (w := w) (by rintro hnil; simp [hnil] at hroom)
      exact ih (by omega) (hP w hroom h)
    · exact ⟨h, by omega⟩

/-! ## The order of the events -/

def World.crossing (w : World) : List AdapterEvent := w.delivered ++ w.queue.filterMap id

def World.Ordered (w : World) : Prop :=
  (w.crossing.map AdapterEvent.sequence).Pairwise (· < ·) ∧ ∀ e ∈ w.crossing, e.sequence ≤ w.sequence

theorem World.Ordered.mono {w t : World} (h : w.Ordered) (hs : t.crossing.Sublist w.crossing) (hle : w.sequence ≤ t.sequence) : t.Ordered :=
  ⟨h.1.sublist (hs.map _), fun e he => Nat.le_trans (h.2 e (hs.subset he)) hle⟩

theorem World.Ordered.mint (h : w.Ordered) {e : AdapterEvent} (hc : t.crossing = w.crossing ++ [e]) (he : e.sequence = w.sequence + 1)
    (ht : t.sequence = w.sequence + 1) : t.Ordered := by
  refine ⟨?_, fun x hx => ?_⟩
  · rw [hc, List.map_append, List.pairwise_append]
    refine ⟨h.1, List.pairwise_singleton _ _, ?_⟩
    intro a ha b hb
    obtain ⟨x, hx, rfl⟩ := List.mem_map.mp ha
    obtain rfl : b = w.sequence + 1 := by simpa [he] using hb
    exact Nat.lt_succ_of_le (h.2 x hx)
  rw [hc, List.mem_append, List.mem_singleton] at hx
  rcases hx with hx | rfl
  · exact Nat.le_trans (h.2 x hx) (by omega)
  · omega

theorem flushNotice_cases (limit : Nat) (w : World) : w.flushNotice limit = w ∨
    w.flushNotice limit = { w with
      sequence := w.sequence + 1
      dropped := 0
      queue := w.queue ++ [some (loadShedNotice (w.sequence + 1) w.dropped)] } := by
  unfold World.flushNotice
  split
  · exact .inl rfl
  split
  · exact .inr rfl
  · exact .inl rfl

theorem makeRoom_eq (room : Nat) (w : World) : ∃ q d, w.makeRoom room w.queue.length = { w with queue := q, dropped := d } ∧
    q.Sublist w.queue := by
  refine (@makeRoom_rule room (fun u => ∃ q d, u = { w with queue := q, dropped := d } ∧ q.Sublist w.queue) ?_ _ w
    (Nat.le_refl _) ⟨w.queue, w.dropped, rfl, .refl _⟩).1
  rintro u hroom ⟨q, d, rfl, hsub⟩
  obtain ⟨a, x, b, hq, he, -⟩ := evict_splits (List.ne_nil_of_length_pos (Nat.zero_lt_of_lt hroom))
  have hq : q = a ++ x :: b := hq
  exact ⟨a ++ b, _, he, .trans (hq ▸ (List.sublist_cons_self x b).append_left a) hsub⟩

theorem World.Ordered.flush (h : w.Ordered) : (w.flushNotice limit).Ordered := by
  rcases flushNotice_cases limit w with heq | heq <;> rw [heq]
  · exact h
  · exact h.mint (e := loadShedNotice (w.sequence + 1) w.dropped) (by simp [World.crossing]) rfl rfl

theorem World.Ordered.roomy (h : w.Ordered) : (w.makeRoom room w.queue.length).Ordered := by
  obtain ⟨q, d, heq, hsub⟩ := makeRoom_eq room w
  rw [heq]
  exact h.mono ((hsub.filterMap _).append_left _) (Nat.le_refl _)

theorem ordered_step (h : w.Ordered) {i : Action} (hstep : w.step limit i = some t) : t.Ordered := by
  cases i with
  | start =>
    cases hstep
    exact h
  | emit kind codexMethod =>
    simp only [World.step] at hstep
    split at hstep <;> cases hstep
    obtain ⟨q, d, heq, hsub⟩ := makeRoom_eq (limit - 1) { w with sequence := w.sequence + 1, offered := w.offered + 1 }
    simp only [World.offer, World.put, heq]
    refine World.Ordered.flush (World.Ordered.mint (w := { w with queue := q }) ?_
      (e := ⟨w.sequence + 1, kind, .method codexMethod⟩) (by simp [World.crossing]) rfl rfl)
    exact h.mono ((hsub.filterMap _).append_left _) (Nat.le_refl _)
  | close =>
    cases hstep
    exact World.Ordered.flush (h.roomy.flush.roomy.mono (by simp [World.crossing]) (Nat.le_refl _))
  | take =>
    simp only [World.step] at hstep
    split at hstep <;> cases hstep <;> exact h.mono (by simp [World.crossing, *]) (Nat.le_refl _)
  | resume =>
    cases hstep
    exact h.flush

/-! ## The account -/

def AdapterEvent.droppedEvents (e : AdapterEvent) : Option Nat :=
  match e.raw with
  | .loadShed droppedEvents .. => some droppedEvents
  | .method _ => none

/-- An event counts once, a notice for the events that it reports. -/
def weight (x : Option AdapterEvent) : Nat := x.elim 0 fun e => e.droppedEvents.getD 1

def tally (l : List (Option AdapterEvent)) : Nat := (l.map weight).sum

/-- The events of a list that are no notices, and what its notices report. -/
def plainEvents (l : List AdapterEvent) : Nat := l.countP fun e => e.droppedEvents.isNone

def reported (l : List AdapterEvent) : Nat := (l.filterMap AdapterEvent.droppedEvents).sum

def World.Accounted (w : World) : Prop :=
  w.offered = plainEvents w.delivered + plainEvents (w.queue.filterMap id) +
    (reported w.delivered + reported (w.queue.filterMap id)) + w.dropped

theorem tally_eq (l : List (Option AdapterEvent)) : tally l = plainEvents (l.filterMap id) + reported (l.filterMap id) := by
  induction l with
  | nil => rfl
  | cons x l ih =>
    rw [tally, List.map_cons, List.sum_cons, ← tally, ih]
    cases x with
    | none => simp [weight]
    | some e => cases hd : e.droppedEvents <;> simp [weight, plainEvents, reported, hd] <;> omega

@[simp] theorem tally_nil : tally [] = 0 := rfl

@[simp] theorem tally_append (a b : List (Option AdapterEvent)) : tally (a ++ b) = tally a + tally b := by simp [tally]

@[simp] theorem tally_cons (x : Option AdapterEvent) (l : List (Option AdapterEvent)) : tally (x :: l) = weight x + tally l := by
  simp [tally]

theorem weight_delta {x : Option AdapterEvent} (h : isDelta x = true) : weight x = 1 := by
  rcases x with _ | ⟨sequence, kind, _ | _⟩
  · cases h
  · rfl
  · cases h

/-- Making room sheds no notice of other than one event: where the deltas do not suffice, the oldest others go. -/
def World.shedsHonestly (room : Nat) (w : World) : Prop :=
  ∀ x ∈ (w.queue.filter fun x => !isDelta x).take (w.queue.length - room - w.queue.countP isDelta), weight x = 1

/-- Nothing is offered behind the sentinel, and no notice of other than one event is shed. -/
def World.honest (limit : Nat) (w : World) : Action → Prop
  | .emit .. => w.closed = false ∧ w.shedsHonestly (limit - 1)
  | .close => w.closed = false ∧ w.shedsHonestly (limit - 2)
  | _ => True

instance (limit : Nat) (w : World) (i : Action) : Decidable (w.honest limit i) := by
  unfold World.honest World.shedsHonestly
  cases i <;> infer_instance

/-- Every offered event but `k` has its entry, and events are offered only once there is a snapshot. -/
structure Entered (k : Nat) (w : World) : Prop where
  account : w.offered = tally (w.delivered.map some) + tally w.queue + w.dropped + k
  attached : w.offered ≠ 0 → w.snapshot = true

variable {k : Nat}

theorem Entered.evict (h : Entered k w) (hroom : room < w.queue.length) (hshed : w.shedsHonestly room) :
    Entered k w.evictForSpace ∧ w.evictForSpace.shedsHonestly room := by
  obtain ⟨a, x, b, hq, he, hvictim⟩ := evict_splits (List.ne_nil_of_length_pos (Nat.zero_lt_of_lt hroom))
  have haccount := h.account
  have hlength := congrArg List.length hq
  unfold World.shedsHonestly at hshed ⊢
  obtain ⟨hone, hrest⟩ : weight x = 1 ∧
      ∀ y ∈ ((a ++ b).filter fun y => !isDelta y).take ((a ++ b).length - room - (a ++ b).countP isDelta), weight y = 1 := by
    rcases hvictim with hdelta | ⟨rfl, hnone⟩
    · refine ⟨weight_delta hdelta, fun y hy => hshed y ?_⟩
      rw [show w.queue.length - room - w.queue.countP isDelta = (a ++ b).length - room - (a ++ b).countP isDelta by
        simp [hq, hdelta]; omega, hq]
      simpa [hdelta] using hy
    have hcount : w.queue.countP isDelta = 0 := List.countP_eq_zero.mpr (by simpa using hnone)
    rw [List.filter_eq_self.mpr (by simpa using hnone), hcount, hq, List.nil_append, List.length_cons, Nat.sub_zero,
      show b.length + 1 - room = b.length - room + 1 by simp at hlength; omega, List.take_succ_cons] at hshed
    rw [hq] at hnone hcount
    refine ⟨hshed x (by simp), fun y hy => hshed y (List.mem_cons_of_mem _ ?_)⟩
    simpa [List.filter_eq_self.mpr (show ∀ y ∈ b, (!isDelta y) = true by simp_all), show b.countP isDelta = 0 by simp_all] using hy
  have hsome : x.isSome = true := by
    cases x with
    | none => cases hone
    | some e => rfl
  rw [hq] at haccount
  simp [hone] at haccount
  rw [he]
  exact ⟨⟨by simp [hsome]; omega, h.attached⟩, hrest⟩

theorem Entered.roomy (h : Entered k w) (hshed : w.shedsHonestly room) :
    Entered k (w.makeRoom room w.queue.length) ∧ (w.makeRoom room w.queue.length).queue.length ≤ room := by
  obtain ⟨hkept, hlength⟩ := @makeRoom_rule room (fun u => Entered k u ∧ u.shedsHonestly room)
    (fun u hroom hu => hu.1.evict hroom hu.2) w.queue.length w (Nat.le_refl _) ⟨h, hshed⟩
  exact ⟨hkept.1, hlength⟩

theorem Entered.flush (h : Entered k w) : Entered k (w.flushNotice limit) := by
  have haccount := h.account
  rcases flushNotice_cases limit w with heq | heq <;> rw [heq]
  · exact h
  · exact ⟨by simp [weight, loadShedNotice, AdapterEvent.droppedEvents, tally] at haccount ⊢; omega, h.attached⟩

/-! ## The sentinel -/

def World.SentinelLast (w : World) : Prop :=
  w.closed = true → if w.ended then w.queue = [] else ∃ ahead, w.queue = ahead ++ [none] ∧ none ∉ ahead

structure Kept (w : World) : Prop where
  entered : Entered 0 w
  waiting : w.closed = false → none ∉ w.queue ∧ w.ended = false
  paid : w.closed = true → w.dropped = 0
  last : w.SentinelLast

theorem makeRoom_of_le (h : w.queue.length ≤ room) : w.makeRoom room w.queue.length = w := by
  cases hlength : w.queue.length with
  | zero => rfl
  | succ n => rw [World.makeRoom, if_neg (by omega)]

theorem Kept.close (h : Kept w) (hlimit : 2 ≤ limit) (hshed : w.shedsHonestly (limit - 2)) (hclosed : w.closed = false) :
    Kept { (w.offer limit none) with closed := true } := by
  obtain ⟨hroomy, hlength⟩ := h.entered.roomy hshed
  obtain ⟨q, d, heq, hsub⟩ := makeRoom_eq (limit - 2) w
  rw [heq] at hroomy hlength
  let u := ({ w with queue := q, dropped := d } : World).flushNotice limit
  have hentered : Entered 0 u := hroomy.flush
  have haccount := hroomy.account
  obtain ⟨hroom, hpaid, hnone, hended⟩ : u.queue.length ≤ limit - 1 ∧ u.dropped = 0 ∧ none ∉ u.queue ∧ u.ended = false := by
    have hnone : none ∉ q := fun hmem => (h.waiting hclosed).1 (hsub.subset hmem)
    have hflush : ¬ limit ≤ q.length := by simp at hlength; omega
    by_cases hd : d = 0
    · rw [show u = { w with queue := q, dropped := d } from if_pos (.inl hd)]
      exact ⟨by simp; omega, hd, hnone, (h.waiting hclosed).2⟩
    have hsnapshot : w.snapshot = true := h.entered.attached (by simp at haccount; omega)
    simp only [u, World.flushNotice, hd, hflush, hsnapshot, or_self, if_false, if_true]
    exact ⟨by simp at hlength ⊢; omega, trivial, by simpa using hnone, (h.waiting hclosed).2⟩
  have hput : w.offer limit none = { u with queue := u.queue ++ [none] } := by
    rw [World.offer, heq, World.put, makeRoom_of_le hroom]
    exact if_pos (.inl hpaid)
  have haccount := hentered.account
  rw [hput]
  refine ⟨⟨by simp [weight, tally] at haccount ⊢; omega, hentered.attached⟩, nofun, fun _ => hpaid, fun _ => ?_⟩
  rw [if_neg (by simp [hended])]
  exact ⟨u.queue, rfl, hnone⟩

theorem Kept.flush (h : Kept w) : Kept (w.flushNotice limit) := by
  by_cases hclosed : w.closed = true
  · rwa [World.flushNotice, if_pos (.inl (h.paid hclosed))]
  have hwaiting := h.waiting (by simpa using hclosed)
  have hentered : Entered 0 (w.flushNotice limit) := h.entered.flush
  rcases flushNotice_cases limit w with heq | heq <;> rw [heq] at hentered ⊢
  · exact h
  · exact ⟨hentered, fun _ => ⟨by simpa using hwaiting.1, hwaiting.2⟩, fun _ => rfl, fun hc => absurd hc hclosed⟩

theorem kept_step (hlimit : 2 ≤ limit) (h : Kept w) {i : Action} (hok : w.honest limit i) (hstep : w.step limit i = some t) :
    Kept t := by
  have haccount := h.entered.account
  cases i with
  | start =>
    cases hstep
    exact ⟨⟨haccount, fun _ => rfl⟩, h.waiting, h.paid, h.last⟩
  | emit kind codexMethod =>
    simp only [World.step] at hstep
    split at hstep <;> cases hstep
    rename_i hsnapshot
    let u : World := { w with sequence := w.sequence + 1, offered := w.offered + 1 }
    have hentered : Entered 1 u := ⟨congrArg (· + 1) haccount, fun _ => hsnapshot⟩
    obtain ⟨q, d, heq, hsub⟩ := makeRoom_eq (limit - 1) u
    have hroomy := (hentered.roomy hok.2).1
    have hwaiting := h.waiting hok.1
    rw [heq] at hroomy
    have haccount := hroomy.account
    show Kept (u.put limit _)
    rw [World.put, heq]
    refine Kept.flush ⟨⟨by simp [weight, AdapterEvent.droppedEvents] at haccount ⊢; omega, fun _ => hsnapshot⟩, fun _ => ⟨?_, hwaiting.2⟩,
      fun hc => absurd (hok.1.symm.trans hc) (by decide), fun hc => absurd (hok.1.symm.trans hc) (by decide)⟩
    simpa using fun hmem => hwaiting.1 (hsub.subset hmem)
  | close =>
    cases hstep
    exact h.close hlimit hok.2 hok.1
  | take =>
    simp only [World.step] at hstep
    have hlast := h.last
    unfold World.SentinelLast at hlast
    split at hstep <;> cases hstep <;> rename_i hended hq <;> simp only [hq, hended] at haccount hlast
    · refine ⟨⟨by simp at haccount ⊢; omega, h.entered.attached⟩, fun hc => ?_, h.paid, fun hc => ?_⟩
      · have hwaiting := h.waiting hc
        rw [hq] at hwaiting
        exact ⟨fun hmem => hwaiting.1 (List.mem_cons_of_mem _ hmem), hwaiting.2⟩
      obtain ⟨_ | ⟨x, ahead⟩, hahead, hnone⟩ := hlast hc
      · cases hahead
      cases hahead
      rw [if_neg (by simp [hended])]
      exact ⟨ahead, rfl, fun hmem => hnone (List.mem_cons_of_mem _ hmem)⟩
    · have hclosed : w.closed = true := by
        by_contra hopen
        exact (h.waiting (by simpa using hopen)).1 (by simp [hq])
      obtain ⟨_ | ⟨x, ahead⟩, hahead, hnone⟩ := hlast hclosed
      · cases hahead
        exact ⟨⟨by simpa [weight] using haccount, h.entered.attached⟩, fun hc => absurd (hc.symm.trans hclosed) (by decide), h.paid,
          fun _ => rfl⟩
      · cases hahead
        simp at hnone
  | resume =>
    cases hstep
    exact h.flush

/-- **Shed events are accounted for.** Delivered events keep their order and only a queue without deltas sheds another event.
Where no notice of other than one event is shed and nothing is offered behind the sentinel, every offered event is delivered,
queued, reported or owed, and the sentinel is the last. -/
theorem shed_events_accounted (limit : Nat) (hlimit : 2 ≤ limit) :
    (∀ w, Reachable (system limit) always w → w.Ordered ∧ ∀ x, w.queue[evictIndex w.queue]? = some x →
      isDelta x = true ∨ ∀ y ∈ w.queue, isDelta y = false) ∧
    ∀ w, Reachable (system limit) (World.honest limit) w → w.Accounted ∧ w.SentinelLast := by
  refine ⟨fun w h => ⟨?_, fun x hx => ?_⟩, fun w h => ?_⟩
  · exact h.invariant (by simp [World.Ordered, World.crossing, system]) fun _ _ _ hw _ hs => ordered_step hw hs
  · unfold evictIndex at hx
    cases hfind : w.queue.findIdx? isDelta with
    | none => exact .inr (List.findIdx?_eq_none_iff.mp hfind)
    | some i =>
      obtain ⟨hi, hdelta, -⟩ := List.findIdx?_eq_some_iff_getElem.mp hfind
      rw [hfind, Option.getD_some, List.getElem?_eq_getElem hi] at hx
      exact .inl (Option.some.inj hx ▸ hdelta)
  have hw : Kept w := h.invariant
    ⟨⟨rfl, fun hne => absurd rfl hne⟩, fun _ => ⟨List.not_mem_nil, rfl⟩, fun _ => rfl, fun hc => absurd hc Bool.false_ne_true⟩
    fun _ _ _ hw hok hs => kept_step hlimit hw hok hs
  have haccount := hw.entered.account
  rw [tally_eq, tally_eq, List.filterMap_map] at haccount
  exact ⟨by simpa [World.Accounted, Nat.add_comm, Nat.add_left_comm, Nat.add_assoc] using haccount, hw.last⟩

theorem shed_events_accounted_two : ∃ w : World, w.offered = 3 ∧ w.ended = true ∧ w.Ordered ∧ w.Accounted ∧ w.SentinelLast := by
  obtain ⟨w, hrun, hp⟩ := exists_of_checkedRun (show (checkedRun (system 2) (World.honest 2) (system 2).init [.start, .emit "state" none,
    .emit "state" none, .emit "state" none, .take, .resume, .take, .take, .close, .take]).any (fun w => w.offered = 3 && w.ended) = true
    by decide +kernel)
  obtain ⟨hall, hhonest⟩ := shed_events_accounted 2 (by decide)
  obtain ⟨hoffered, hended⟩ := Bool.and_eq_true_iff.mp hp
  exact ⟨w, of_decide_eq_true hoffered, hended, (hall w hrun.always).1, hhonest w hrun⟩

instance (w : World) : Decidable w.Accounted := inferInstanceAs (Decidable (_ = _))

/-- A notice of two events is shed, and counts as one. -/
theorem shed_notice_lost : ¬ ∀ w, Reachable (system 2) always w → w.Accounted := by
  intro h
  obtain ⟨w, hrun, hp⟩ := (Option.any_eq_true _ _).mp (show (runFrom (system 2) (system 2).init
    [.start, .emit "state" none, .emit "state" none, .emit "state" none, .emit "state" none, .take, .resume, .emit "state" none,
      .emit "state" none]).any (fun w => ¬ w.Accounted) = true by decide +kernel)
  exact of_decide_eq_true hp (h w (reachable_of_runFrom hrun))

end AgentsRemember.Adapter.CodexEvents
