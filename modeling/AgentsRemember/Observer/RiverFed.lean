import AgentsRemember.Observer.PruneSound
import AgentsRemember.Observer.River

/-!
# Reading a log of events

What the tail and retention make of the bytes of a log that holds only events:
the offsets are those of its lines.
-/

namespace AgentsRemember.Observer

namespace River

open Lib Lib.JsonText Lib.Lines Logs

def linesOf (rows : List Event) : List Bytes := rows.map fun e => Utf8.encode (eventLine e)

def textOf (rows : List Event) : Bytes := Utf8.encode (logText eventModel rows)

def room (rows : List Event) : Nat := size (linesOf rows)

@[simp] theorem room_nil : room [] = 0 := rfl

@[simp] theorem room_append (rows more : List Event) : room (rows ++ more) = room rows + room more := by
  simp [room, linesOf]

theorem room_cons (e : Event) (rows : List Event) : room (e :: rows) = (Utf8.encode (eventLine e)).length + 1 + room rows := by
  simp [room, linesOf]

theorem room_take_add_drop (rows : List Event) (i : Nat) : room (rows.take i) + room (rows.drop i) = room rows := by
  rw [← room_append, List.take_append_drop]

theorem textOf_unlines (rows : List Event) : textOf rows = unlines 10 (linesOf rows) := encode_logText rows

theorem length_textOf (rows : List Event) : (textOf rows).length = room rows := by
  rw [textOf_unlines, length_unlines]
  rfl

theorem textOf_append (rows more : List Event) : textOf (rows ++ more) = textOf rows ++ textOf more := by
  simp only [textOf_unlines, linesOf, List.map_append, unlines_append]

theorem textOf_singleton (e : Event) : textOf [e] = Utf8.encode (lineText (eventLine e)) := by
  simp [textOf, logText, eventLine]

theorem drop_textOf (rows : List Event) (i : Nat) : (textOf rows).drop (room (rows.take i)) = textOf (rows.drop i) := by
  have h := drop_unlines 10 (linesOf rows) i
  rw [textOf_unlines, textOf_unlines]
  simpa only [room, linesOf, List.map_take, List.map_drop] using h

theorem count_textOf (rows : List Event) : ((textOf rows).filter isNewlineByte).length = rows.length := by
  have h := length_split isNewlineByte (textOf rows)
  rw [textOf, split_logText, List.length_append, List.length_map, List.length_singleton] at h
  rw [textOf]
  omega

theorem lineOffsets_ends : ∀ (start : Nat) (ls : List Bytes), lineOffsets start (ls ++ [[]]) = (ends start ls, start + size ls)
  | start, [] => rfl
  | start, [l] => by simp [lineOffsets, ends, Nat.add_assoc]
  | start, l :: l' :: ls => by
    have ih := lineOffsets_ends (start + l.length + 1) (l' :: ls)
    rw [List.cons_append] at ih
    rw [List.cons_append, List.cons_append, lineOffsets, ih, ends, size_cons l]
    congr 1
    omega

theorem ends_shift (base : Nat) (ls : List Bytes) : ∀ start : Nat,
    (ends start ls).map (fun e => (e.1, base + e.2)) = ends (base + start) ls := by
  induction ls with
  | nil => intro start; rfl
  | cons l ls ih =>
    intro start
    rw [ends, List.map_cons, ih, ends]
    simp only [Nat.add_assoc]

variable {rows : List Event} {m : Nat}

theorem readLinesFrom_room :
    readLinesFrom (textOf rows) (room (rows.take m)) = (ends (room (rows.take m)) (linesOf (rows.drop m)), room rows) := by
  have hle : room (rows.take m) ≤ (textOf rows).length := by
    rw [length_textOf, ← room_take_add_drop rows m]
    exact Nat.le_add_right _ _
  have hmark : ¬(0 < room (rows.take m) ∧ (textOf rows)[room (rows.take m) - 1]? ≠ some 10) := by
    rintro ⟨hpos, hne⟩
    apply hne
    have htake : room (rows.take m) = size ((linesOf rows).take m) := by
      simp only [room, linesOf, List.map_take]
    rw [htake] at hpos ⊢
    rw [textOf_unlines]
    exact mark_before 10 hpos
  have hsplit : split isNewlineByte (textOf (rows.drop m)) = linesOf (rows.drop m) ++ [[]] := split_logText _
  unfold readLinesFrom
  dsimp only
  rw [Nat.min_eq_left hle, if_neg hmark, drop_textOf, hsplit, lineOffsets_ends]
  simp only [Prod.mk.injEq, true_and]
  exact room_take_add_drop rows m

theorem readSourceLines_room {name : String} {base p : Nat} (hp : (p ≤ base ∧ m = 0) ∨ p = base + room (rows.take m)) :
    readSourceLines ⟨name, textOf rows, base⟩ p = (ends (base + room (rows.take m)) (linesOf (rows.drop m)), base + room rows) := by
  have hstart : min (p - base) (textOf rows).length = room (rows.take m) := by
    rw [length_textOf]
    have htotal := room_take_add_drop rows m
    rcases hp with ⟨hle, rfl⟩ | rfl
    · rw [List.take_zero, room_nil]
      omega
    · omega
  unfold readSourceLines
  dsimp only
  rw [hstart, readLinesFrom_room, ends_shift]

/-! ## Retention -/

def entriesFrom (start : Nat) : List Event → List Entry
  | [] => []
  | e :: rows => ⟨start, start + (Utf8.encode (eventLine e)).length + 1, e.dump⟩ ::
    entriesFrom (start + (Utf8.encode (eventLine e)).length + 1) rows

theorem filterMap_ends : ∀ (rows : List Event) (start : Nat), (ends start (linesOf rows)).filterMap entryOf = entriesFrom start rows
  | [], _ => rfl
  | e :: rows, start => by
    have hentry : entryOf (Utf8.encode (eventLine e), start + (Utf8.encode (eventLine e)).length + 1) =
        some ⟨start, start + (Utf8.encode (eventLine e)).length + 1, e.dump⟩ := by
      have hloads : loads (eventLine e) = some (.obj e.dump) := loads_dumps compact _
      simp [entryOf, Utf8.decode_encode, hloads, asObject]
    have hcons : linesOf (e :: rows) = Utf8.encode (eventLine e) :: linesOf rows := rfl
    rw [hcons, ends, List.filterMap_cons_some hentry, filterMap_ends rows, entriesFrom]

theorem iterEventPayloads_textOf (rows : List Event) : iterEventPayloads (textOf rows) = entriesFrom 0 rows := by
  have hsplit : split isNewlineByte (textOf rows) = linesOf rows ++ [[]] := split_logText _
  rw [iterEventPayloads, hsplit, lineOffsets_ends, filterMap_ends]

theorem entriesFrom_get {start : Nat} {i : Nat} {entry : Entry} (h : (entriesFrom start rows)[i]? = some entry) :
    i < rows.length ∧ entry.start = start + room (rows.take i) ∧ entry.after = start + room (rows.take (i + 1)) := by
  induction rows generalizing start i with
  | nil => cases h
  | cons e rows ih =>
    cases i with
    | zero =>
      rw [entriesFrom, List.getElem?_cons_zero, Option.some.injEq] at h
      subst h
      simp [room_cons, Nat.add_assoc]
    | succ i =>
      rw [entriesFrom, List.getElem?_cons_succ] at h
      obtain ⟨hi, hs, ha⟩ := ih h
      refine ⟨by simpa using hi, ?_, ?_⟩
      · rw [hs, List.take_succ_cons, room_cons]
        omega
      · rw [ha, List.take_succ_cons, room_cons]
        omega

theorem firstRetainedOffset_textOf (rows : List Event) (cutoff : Int) :
    ∃ i ≤ rows.length, firstRetainedOffset (textOf rows) cutoff = room (rows.take i) := by
  unfold firstRetainedOffset
  rw [iterEventPayloads_textOf]
  dsimp only
  split
  · rename_i entry hfind
    obtain ⟨i, hi⟩ := List.getElem?_of_mem (List.mem_of_find?_eq_some hfind)
    obtain ⟨hlt, hs, -⟩ := entriesFrom_get hi
    exact ⟨i, hlt.le, by rw [hs, Nat.zero_add]⟩
  cases hlast : (entriesFrom 0 rows).getLast? with
  | none => exact ⟨0, Nat.zero_le _, rfl⟩
  | some entry =>
    rw [List.getLast?_eq_getElem?] at hlast
    obtain ⟨hlt, -, ha⟩ := entriesFrom_get hlast
    exact ⟨_, hlt, by rw [Option.map_some, Option.getD_some, ha, Nat.zero_add]⟩

theorem retainedStart_textOf (rows : List Event) (cutoff : Int) :
    ∃ i ≤ rows.length, (retainedStart (textOf rows) cutoff).1 = room (rows.take i) := by
  unfold retainedStart
  rw [iterEventPayloads_textOf]
  dsimp only
  generalize ((entriesFrom 0 rows).takeWhile fun e => (payloadTime e.payload).any fun ts => ts < cutoff).length = i
  cases hi : (entriesFrom 0 rows)[i]? with
  | none => exact ⟨rows.length, Nat.le_refl _, by rw [List.take_length, ← length_textOf]; rfl⟩
  | some entry =>
    obtain ⟨hlt, hs, -⟩ := entriesFrom_get hi
    exact ⟨i, hlt.le, by rw [Option.map_some, Option.getD_some, hs, Nat.zero_add]⟩

/-! ## What a client has been fed

Of one source: which of its events a client has received, up to which one it has
read, and that the offset it holds stands for that place in the log. Appends,
removals and complete compactions keep this, and so does reading the next line.
-/

def wire (e : Event) : List Char × List (String × Value) := (eventLine e, e.dump)

/-- A source: all its events, how many of them its log no longer has, whether the log is there, and the offset of its first byte. -/
structure Feed where
  history : List Event
  dropped : Nat
  live : Bool
  base : Nat

def Feed.held (f : Feed) : List Event := f.history.drop f.dropped

def Feed.At (f : Feed) (p next : Nat) : Prop :=
  (p ≤ f.base ∧ next ≤ f.dropped) ∨
    (f.dropped ≤ next ∧ next ≤ f.history.length ∧ p = f.base + room (f.held.take (next - f.dropped)))

structure Fed (f : Feed) (joined p : Nat) (got : List RawEvent) (next : Nat) (idx : List Nat) : Prop where
  received : got.map (fun r => some (r.data, r.payload)) = idx.map fun j => (f.history[j]?).map wire
  ordered : idx.Pairwise (· < ·)
  since : ∀ j ∈ idx, joined ≤ j
  below : ∀ j ∈ idx, j < next
  started : joined ≤ next
  within : next ≤ f.history.length
  complete : ∀ j e, j < next → f.dropped ≤ j → f.history[j]? = some e → e.kind ≠ heartbeatKind → joined ≤ j → j ∈ idx
  place : f.live = true → f.At p next

variable {f f' : Feed} {joined p next : Nat} {got : List RawEvent} {idx : List Nat}

theorem Feed.At.take_add (k : Nat) (hd : f.dropped + k ≤ next) :
    room (f.held.take (next - f.dropped)) = room (f.held.take k) + room ((f.held.drop k).take (next - (f.dropped + k))) := by
  have hsum : next - f.dropped = k + (next - (f.dropped + k)) := by omega
  rw [hsum, List.take_add, room_append]

theorem Fed.moves (h : Fed f joined p got next idx) (hhist : f.history <+: f'.history) (hdrop : f.dropped ≤ f'.dropped)
    (hplace : f'.live = true → f'.At p next) : Fed f' joined p got next idx := by
  have hsame : ∀ j, j < next → f'.history[j]? = f.history[j]? := by
    intro j hj
    obtain ⟨more, hmore⟩ := hhist
    rw [← hmore, List.getElem?_append_left (Nat.lt_of_lt_of_le hj h.within)]
  refine ⟨?_, h.ordered, h.since, h.below, h.started, h.within.trans hhist.length_le, ?_, hplace⟩
  · rw [h.received]
    apply List.map_congr_left
    intro j hj
    rw [hsame j (h.below j hj)]
  intro j e hj hd he hk hjoin
  rw [hsame j hj] at he
  exact h.complete j e hj (hdrop.trans hd) he hk hjoin

theorem Fed.append (h : Fed f joined p got next idx) (hlive : f.live = true) (hd : f.dropped ≤ f.history.length) (e : Event) :
    Fed { f with history := f.history ++ [e] } joined p got next idx := by
  refine h.moves (List.prefix_append _ _) (Nat.le_refl _) fun _ => ?_
  rcases h.place hlive with hleft | ⟨hn, hw, hp⟩
  · exact .inl hleft
  refine .inr ⟨hn, hw.trans (by simp), ?_⟩
  have htake : (f.history ++ [e]).drop f.dropped = f.held ++ [e] := List.drop_append_of_le_length hd
  have hlen : next - f.dropped ≤ f.held.length := by
    rw [Feed.held, List.length_drop]
    omega
  unfold Feed.held at hlen hp ⊢
  dsimp only
  rw [htake, Feed.held, List.take_append_of_le_length hlen]
  exact hp

theorem Fed.begin (h : Fed f joined p got next idx) (hp : p ≤ f.base) (hd : f.dropped ≤ f.history.length) (e : Event) :
    Fed ⟨f.history ++ [e], f.history.length, true, f.base⟩ joined p got next idx :=
  h.moves (List.prefix_append _ _) hd fun _ => .inl ⟨hp, h.within⟩

theorem Fed.gone (h : Fed f joined p got next idx) (hd : f.dropped ≤ f.history.length) :
    Fed ⟨f.history, f.history.length, false, f.base⟩ joined p got next idx :=
  h.moves (List.prefix_refl _) hd nofun

theorem Fed.cut (h : Fed f joined p got next idx) (k : Nat) :
    Fed ⟨f.history, f.dropped + k, f.live, f.base + room (f.held.take k)⟩ joined p got next idx := by
  refine h.moves (List.prefix_refl _) (Nat.le_add_right _ _) fun hlive => ?_
  rcases h.place hlive with ⟨hp, hn⟩ | ⟨hn, hw, hp⟩
  · exact .inl ⟨hp.trans (Nat.le_add_right _ _), hn.trans (Nat.le_add_right _ _)⟩
  by_cases hk : f.dropped + k ≤ next
  · refine .inr ⟨hk, hw, ?_⟩
    have hheld : (Feed.held ⟨f.history, f.dropped + k, f.live, f.base + room (f.held.take k)⟩) = f.held.drop k := by
      rw [Feed.held, Feed.held, List.drop_drop]
    rw [hheld, hp, Feed.At.take_add k hk, Nat.add_assoc]
  refine .inl ⟨?_, by dsimp only; omega⟩
  have hle : f.held.take (next - f.dropped) <+: f.held.take k := by
    have htake := List.take_prefix (next - f.dropped) (f.held.take k)
    rwa [List.take_take, Nat.min_eq_left (by omega)] at htake
  obtain ⟨more, hmore⟩ := hle
  rw [hp, ← hmore, room_append]
  dsimp only
  omega

theorem room_eq_zero {rows : List Event} (h : room rows = 0) : rows = [] := by
  cases rows with
  | nil => rfl
  | cons e rows =>
    rw [room_cons] at h
    omega

theorem Fed.die (h : Fed f joined p got next idx) (k : Nat) (hp : p ≤ f.base) :
    Fed ⟨f.history, f.dropped + k, f.live, f.base⟩ joined p got next idx := by
  refine h.moves (List.prefix_refl _) (Nat.le_add_right _ _) fun hlive => .inl ⟨hp, ?_⟩
  dsimp only
  rcases h.place hlive with ⟨-, hn⟩ | ⟨hn, hw, heq⟩
  · omega
  have hroom : room (f.held.take (next - f.dropped)) = 0 := by omega
  have hlen := congrArg List.length (room_eq_zero hroom)
  rw [List.length_take, Feed.held, List.length_drop, List.length_nil] at hlen
  omega

theorem Fed.start (h : Fed f joined p got next idx) (hlive : f.live = true) (hd : f.dropped ≤ f.history.length) :
    ∃ m, next ≤ f.dropped + m ∧ ((p ≤ f.base ∧ m = 0) ∨ p = f.base + room (f.held.take m)) ∧
      Fed f joined (f.base + room (f.held.take m)) got (f.dropped + m) idx := by
  rcases h.place hlive with ⟨hp, hn⟩ | ⟨hn, hw, hp⟩
  · refine ⟨0, hn, .inl ⟨hp, rfl⟩, h.received, h.ordered, h.since, fun j hj => (h.below j hj).trans_le hn, h.started.trans hn, hd, ?_,
      fun _ => .inr ⟨?_, hd, ?_⟩⟩
    · intro j e hj hdj he hk hjoin
      exact absurd hj (Nat.not_lt.mpr hdj)
    · exact Nat.le_refl _
    · rw [Nat.add_zero, Nat.sub_self]
  refine ⟨next - f.dropped, by omega, .inr hp, ?_⟩
  rw [← hp, Nat.add_sub_cancel' hn]
  exact h

variable {m : Nat} {e : Event}

theorem Fed.pass (h : Fed f joined p got (f.dropped + m) idx) (he : f.held[m]? = some e) (hk : e.kind = heartbeatKind) :
    Fed f joined (f.base + room (f.held.take (m + 1))) got (f.dropped + (m + 1)) idx := by
  have hj : f.history[f.dropped + m]? = some e := by rw [← List.getElem?_drop]; exact he
  have hlt : f.dropped + m < f.history.length := (List.getElem?_eq_some_iff.mp hj).1
  refine ⟨h.received, h.ordered, h.since, fun j hj => (h.below j hj).trans (by omega), h.started.trans (by omega), hlt,
    fun j x hjn hd hx hxk hjoin => ?_, fun _ => .inr ⟨Nat.le_add_right _ _, hlt, by rw [Nat.add_sub_cancel_left]⟩⟩
  by_cases hjm : j = f.dropped + m
  · rw [hjm, hj, Option.some.injEq] at hx
    rw [← hx] at hxk
    exact absurd hk hxk
  · exact h.complete j x (by omega) hd hx hxk hjoin

theorem Fed.receive {r : RawEvent} (h : Fed f joined p got (f.dropped + m) idx) (he : f.held[m]? = some e)
    (hr : (r.data, r.payload) = wire e) :
    Fed f joined (f.base + room (f.held.take (m + 1))) (got ++ [r]) (f.dropped + (m + 1)) (idx ++ [f.dropped + m]) := by
  have hj : f.history[f.dropped + m]? = some e := by rw [← List.getElem?_drop]; exact he
  have hlt : f.dropped + m < f.history.length := (List.getElem?_eq_some_iff.mp hj).1
  refine ⟨?_, ?_, fun j hj => ?_, fun j hj => ?_, h.started.trans (by omega), hlt, fun j x hjn hd hx hxk hjoin => ?_,
    fun _ => .inr ⟨Nat.le_add_right _ _, hlt, by rw [Nat.add_sub_cancel_left]⟩⟩
  · rw [List.map_append, List.map_append, h.received, List.map_singleton, List.map_singleton, hj, hr]
    rfl
  · rw [List.pairwise_append]
    refine ⟨h.ordered, List.pairwise_singleton _ _, fun i hi j hj => ?_⟩
    rw [List.mem_singleton.mp hj]
    exact h.below i hi
  · rcases List.mem_append.mp hj with hj | hj
    · exact h.since j hj
    · rw [List.mem_singleton.mp hj]
      exact h.started
  · rcases List.mem_append.mp hj with hj | hj
    · exact (h.below j hj).trans (by omega)
    · rw [List.mem_singleton.mp hj]
      omega
  by_cases hjm : j = f.dropped + m
  · rw [hjm]
    exact List.mem_append_right _ (List.mem_singleton.mpr rfl)
  · exact List.mem_append_left _ (h.complete j x (by omega) hd hx hxk hjoin)

end River

end AgentsRemember.Observer
