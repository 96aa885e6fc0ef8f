import AgentsRemember.Observer.RiverFed

/-!
# The river has no gaps and no duplicates

A read goes through the sources line by line and feeds each line to the client;
every offset map that it passes, in a record or at its end, stands for what the
client has been fed by then. A run keeps this for every client as long as no
compaction dies over a reader and no removed log is written anew under one.
-/

namespace AgentsRemember.Observer

namespace River

open Lib Lib.JsonText Lib.Lines Logs

def World.dropped (w : World) (source : String) : Nat :=
  (w.history source).length - (((w.log source).getD []).filter isNewlineByte).length

def World.feed (w : World) (source : String) : Feed :=
  ⟨w.history source, w.dropped source, (w.log source).isSome, w.baseOf source⟩

/-- The logs hold the events that they have not dropped. -/
structure Sound (w : World) : Prop where
  names : w.lifecycles.get? WORKSPACE_SOURCE = none
  text : ∀ source, (w.log source).getD [] = textOf (w.feed source).held

section
variable (w : World) (joined : String → Nat)

def AllFed (cursor : Dict String Nat) (got : List RawEvent) (next : String → Nat) (idx : String → List Nat) : Prop :=
  ∀ s, Fed (w.feed s) (joined s) ((cursor.get? s).getD 0) (got.filter fun r => r.source = s) (next s) (idx s)

def InPlace (cursor : Dict String Nat) (got : List RawEvent) : Prop := ∃ next idx, AllFed w joined cursor got next idx

def Marked (got es : List RawEvent) : Prop := ∀ pre e post, es = pre ++ e :: post → InPlace w joined e.cursor (got ++ (pre ++ [e]))

end

section
variable {w : World} {joined : String → Nat} {got : List RawEvent}

variable {es : List RawEvent} {cursor : Dict String Nat} {next : String → Nat} {idx : String → List Nat} {p n i : Nat}
  {js : List Nat} {limit : Option Nat} {done : String → Prop} {cut : Bool} {s : String}

theorem Marked.snoc {x : RawEvent} (h : Marked w joined got es) (hx : InPlace w joined x.cursor (got ++ (es ++ [x]))) :
    Marked w joined got (es ++ [x]) := by
  intro pre e post heq
  rcases List.eq_nil_or_concat post with rfl | ⟨post, y, rfl⟩
  · obtain ⟨rfl, hlast⟩ := List.append_inj' heq rfl
    rw [List.cons.injEq] at hlast
    obtain ⟨rfl, -⟩ := hlast
    exact hx
  · rw [List.concat_eq_append, ← List.cons_append, ← List.append_assoc] at heq
    exact h pre e post (List.append_inj' heq rfl).1

theorem AllFed.feed {more : List RawEvent} (h : AllFed w joined cursor es next idx) (s : String)
    (hmore : ∀ r ∈ more, r.source = s)
    (hfed : Fed (w.feed s) (joined s) p (es.filter (fun r => r.source = s) ++ more) n js) :
    AllFed w joined (cursor.set s p) (es ++ more) (Function.update next s n) (Function.update idx s js) := by
  intro t
  by_cases ht : t = s
  · subst ht
    have hfilter : (es ++ more).filter (fun r => r.source = t) = es.filter (fun r => r.source = t) ++ more := by
      rw [List.filter_append, List.filter_eq_self.mpr fun r hr => decide_eq_true (hmore r hr)]
    rw [Dict.get?_set_self, Option.getD_some, hfilter, Function.update_self, Function.update_self]
    exact hfed
  have hfilter : (es ++ more).filter (fun r => r.source = t) = es.filter (fun r => r.source = t) := by
    have hnone : more.filter (fun r => r.source = t) = [] := by
      apply List.filter_eq_nil_iff.mpr
      intro r hr hrt
      rw [hmore r hr, decide_eq_true_eq] at hrt
      exact ht hrt.symm
    rw [List.filter_append, hnone, List.append_nil]
  rw [Dict.get?_set_ne _ _ (Ne.symm ht), hfilter, Function.update_of_ne ht, Function.update_of_ne ht]
  exact h t

def Cut (limit : Option Nat) (es : List RawEvent) : Prop := es ≠ [] ∧ ∃ n, limit = some n ∧ n ≤ es.length

def Goes (w : World) (joined : String → Nat) (got : List RawEvent) (limit : Option Nat) (next : String → Nat) (idx : String → List Nat)
    (done : String → Prop) (cursor : Dict String Nat) (es : List RawEvent) (cut : Bool) : Prop :=
  Marked w joined got es ∧ (cut = true → Cut limit es) ∧
    ∃ next' idx', (∀ t, next t ≤ next' t ∧ idx t <+: idx' t) ∧ AllFed w joined cursor (got ++ es) next' idx' ∧
      (cut = false → ∀ t, done t → next' t = (w.history t).length)

theorem Goes.after
    (h : Goes w joined got limit (Function.update next s n) (Function.update idx s js) done cursor es cut)
    (hn : next s ≤ n) (hjs : idx s <+: js) : Goes w joined got limit next idx done cursor es cut := by
  obtain ⟨hmarked, hcut, next', idx', hle, hrest⟩ := h
  refine ⟨hmarked, hcut, next', idx', fun t => ?_, hrest⟩
  obtain ⟨hnt, hit⟩ := hle t
  by_cases ht : t = s
  · subst ht
    rw [Function.update_self] at hnt hit
    exact ⟨hn.trans hnt, hjs.trans hit⟩
  · rw [Function.update_of_ne ht] at hnt hit
    exact ⟨hnt, hit⟩

theorem tailLines_fed {s : String} {limit : Option Nat} {rows : List Event} {m : Nat} {st : TailState} {next : String → Nat}
    {idx : String → List Nat} {r : TailState × Bool} (hrows : (w.feed s).held.drop m = rows)
    (hfed : AllFed w joined (st.current.set s ((w.feed s).base + room ((w.feed s).held.take m))) (got ++ st.events) next idx)
    (hnext : next s = (w.feed s).dropped + m) (hmarked : Marked w joined got st.events)
    (hr : tailLines s limit (ends ((w.feed s).base + room ((w.feed s).held.take m)) (linesOf rows)) st = r) :
    Goes w joined got limit next idx (fun t => t = s)
      (if r.2 then r.1.current else r.1.current.set s ((w.feed s).base + room (w.feed s).held)) r.1.events r.2 := by
  induction rows generalizing m st next idx with
  | nil =>
    simp only [linesOf, List.map_nil, ends, tailLines] at hr
    subst hr
    have hall : (w.feed s).held.length ≤ m := List.drop_eq_nil_iff.mp hrows
    refine ⟨hmarked, fun h => (by cases h), next, idx, fun t => ⟨Nat.le_refl _, List.prefix_refl _⟩, ?_, ?_⟩
    · rw [List.take_of_length_le hall] at hfed
      exact hfed
    rintro - t rfl
    have hw := (hfed t).within
    have hlen : (w.feed t).history.length - (w.feed t).dropped ≤ m := by
      rw [← List.length_drop]
      exact hall
    have hhist : (w.feed t).history = w.history t := rfl
    rw [hhist] at hw hlen
    omega
  | cons e rows ih =>
    have he : (w.feed s).held[m]? = some e := by
      rw [← List.head?_drop, hrows]
      rfl
    have hdrop : (w.feed s).held.drop (m + 1) = rows := by
      rw [← List.tail_drop, hrows]
      rfl
    have hroom : room ((w.feed s).held.take (m + 1)) = room ((w.feed s).held.take m) + ((Utf8.encode (eventLine e)).length + 1) := by
      rw [List.take_add_one, he, room_append, Option.toList_some, room_cons, room_nil]
    have hown := hfed s
    rw [hnext, Dict.get?_set_self, Option.getD_some] at hown
    have hends : ends ((w.feed s).base + room ((w.feed s).held.take m)) (linesOf (e :: rows)) =
        (Utf8.encode (eventLine e), (w.feed s).base + room ((w.feed s).held.take (m + 1))) ::
          ends ((w.feed s).base + room ((w.feed s).held.take (m + 1))) (linesOf rows) := by
      have hcons : linesOf (e :: rows) = Utf8.encode (eventLine e) :: linesOf rows := rfl
      rw [hcons, ends, hroom, ← Nat.add_assoc, ← Nat.add_assoc]
    rw [hends, tailLines, payloadOf_eventLine] at hr
    dsimp only at hr
    have hahead : next s ≤ (w.feed s).dropped + (m + 1) := by omega
    by_cases hk : e.kind = heartbeatKind
    · rw [if_pos hk] at hr
      have hstep := hfed.feed s (List.forall_mem_nil _) (by rw [List.append_nil]; exact hown.pass he hk)
      rw [List.append_nil, Dict.set_set] at hstep
      dsimp only at hr
      generalize hcursor : st.current.set s ((w.feed s).base + room ((w.feed s).held.take (m + 1))) = cursor at hr hstep
      have hset : cursor.set s ((w.feed s).base + room ((w.feed s).held.take (m + 1))) = cursor := by rw [← hcursor, Dict.set_set]
      rw [← hset] at hstep
      exact (@ih _ ⟨st.events, cursor⟩ _ _ hdrop hstep (Function.update_self _ _ _) hmarked hr).after hahead (List.prefix_refl _)
    rw [if_neg hk] at hr
    dsimp only at hr
    generalize hx : (⟨s, eventLine e, e.dump, st.current.set s ((w.feed s).base + room ((w.feed s).held.take (m + 1)))⟩ : RawEvent) = x
      at hr
    have hwire : (x.data, x.payload) = wire e := by rw [← hx]; rfl
    have hsource : ∀ y ∈ [x], y.source = s := by
      intro y hy
      rw [List.mem_singleton.mp hy, ← hx]
    have hcursor : x.cursor = st.current.set s ((w.feed s).base + room ((w.feed s).held.take (m + 1))) := by rw [← hx]
    have hstep := hfed.feed s hsource (hown.receive he hwire)
    rw [Dict.set_set, List.append_assoc, ← hcursor] at hstep
    have hmarked' : Marked w joined got (st.events ++ [x]) := hmarked.snoc ⟨_, _, hstep⟩
    rw [← hcursor] at hr
    have hset : x.cursor.set s ((w.feed s).base + room ((w.feed s).held.take (m + 1))) = x.cursor := by
      rw [hcursor, Dict.set_set]
    have hgo : tailLines s limit (ends ((w.feed s).base + room ((w.feed s).held.take (m + 1))) (linesOf rows))
        ⟨st.events ++ [x], x.cursor⟩ = r → Goes w joined got limit next idx (fun t => t = s)
          (if r.2 then r.1.current else r.1.current.set s ((w.feed s).base + room (w.feed s).held)) r.1.events r.2 := by
      intro hr
      rw [← hset] at hstep
      exact (@ih _ ⟨st.events ++ [x], x.cursor⟩ _ _ hdrop hstep (Function.update_self _ _ _) hmarked' hr).after hahead
        (List.prefix_append _ _)
    cases limit with
    | none => exact hgo hr
    | some n =>
      dsimp only at hr
      by_cases hn : n ≤ (st.events ++ [x]).length
      · rw [if_pos hn] at hr
        subst hr
        have hcut : Cut (some n) (st.events ++ [x]) := ⟨by simp, n, rfl, hn⟩
        refine Goes.after ⟨hmarked', fun _ => hcut, _, _, fun t => ⟨Nat.le_refl _, List.prefix_refl _⟩, hstep, fun h => by cases h⟩
          hahead (List.prefix_append _ _)
      · rw [if_neg hn] at hr
        exact hgo hr

theorem Goes.trans {next' : String → Nat} {idx' : String → List Nat} {done' : String → Prop}
    (h : Goes w joined got limit next' idx' done' cursor es cut) (hle : ∀ t, next t ≤ next' t ∧ idx t <+: idx' t)
    (hdone : ∀ t, done t → done' t ∨ next' t = (w.history t).length) :
    Goes w joined got limit next idx done cursor es cut := by
  obtain ⟨hmarked, hcut, next'', idx'', hle', hfed, hend⟩ := h
  refine ⟨hmarked, hcut, next'', idx'', fun t => ⟨(hle t).1.trans (hle' t).1, (hle t).2.trans (hle' t).2⟩, hfed, fun hc t ht => ?_⟩
  rcases hdone t ht with hd | hn
  · exact hend hc t hd
  · exact Nat.le_antisymm (hfed t).within (hn ▸ (hle' t).1)

def Backed (w : World) (x : Source) : Prop := x = ⟨x.name, textOf (w.feed x.name).held, w.baseOf x.name⟩ ∧ (w.log x.name).isSome = true

theorem dropped_le (w : World) (s : String) : (w.feed s).dropped ≤ (w.feed s).history.length := Nat.sub_le _ _

theorem tailSources_fed {limit : Option Nat} {sources : List Source} {st : TailState} {next : String → Nat} {idx : String → List Nat}
    (hbacked : ∀ x ∈ sources, Backed w x) (hfed : AllFed w joined st.current (got ++ st.events) next idx)
    (hmarked : Marked w joined got st.events) :
    ∃ cut, Goes w joined got limit next idx (fun t => ∃ x ∈ sources, x.name = t) (tailSources limit sources st).current
      (tailSources limit sources st).events cut := by
  induction sources generalizing st next idx with
  | nil =>
    refine ⟨false, hmarked, fun h => (by cases h), next, idx, fun t => ⟨Nat.le_refl _, List.prefix_refl _⟩, hfed, ?_⟩
    rintro - t ⟨x, hx, -⟩
    cases hx
  | cons x sources ih =>
    obtain ⟨⟨hx, hlive⟩, hrest⟩ := List.forall_mem_cons.mp hbacked
    obtain ⟨m, hn, hp, hstart⟩ := (hfed x.name).start hlive (dropped_le w x.name)
    have hlines : readSourceLines x ((st.current.get? x.name).getD 0) =
        (ends ((w.feed x.name).base + room ((w.feed x.name).held.take m)) (linesOf ((w.feed x.name).held.drop m)),
          (w.feed x.name).base + room (w.feed x.name).held) := by
      generalize (st.current.get? x.name).getD 0 = p at hp
      rw [hx]
      exact readSourceLines_room hp
    have hat := hfed.feed x.name (List.forall_mem_nil _) (by rw [List.append_nil]; exact hstart)
    rw [List.append_nil] at hat
    rw [tailSources, hlines]
    dsimp only
    generalize hr : tailLines x.name limit (ends ((w.feed x.name).base + room ((w.feed x.name).held.take m))
      (linesOf ((w.feed x.name).held.drop m))) st = r
    have hgoes := (tailLines_fed rfl hat (Function.update_self _ _ _) hmarked hr).after hn (List.prefix_refl _)
    cases hcut : r.2 with
    | true =>
      rw [hcut, if_pos rfl] at hgoes
      rw [if_pos rfl]
      obtain ⟨hm, hc, next', idx', hle, hall, -⟩ := hgoes
      exact ⟨true, hm, hc, next', idx', hle, hall, fun h => by cases h⟩
    | false =>
      rw [hcut, if_neg Bool.false_ne_true] at hgoes
      rw [if_neg Bool.false_ne_true]
      obtain ⟨hm, -, next', idx', hle, hall, hend⟩ := hgoes
      obtain ⟨cut, hgo⟩ := @ih ⟨r.1.events, r.1.current.set x.name ((w.feed x.name).base + room (w.feed x.name).held)⟩ _ _ hrest hall hm
      refine ⟨cut, hgo.trans hle ?_⟩
      rintro t ⟨y, hy, rfl⟩
      rcases List.mem_cons.mp hy with rfl | hy
      · exact .inr (hend rfl _ rfl)
      · exact .inl ⟨y, hy, rfl⟩

/-! ## The sources of the world -/

theorem log_of_ne (hs : s ≠ WORKSPACE_SOURCE) : w.log s = w.lifecycles.get? s := if_neg hs

theorem log_workspace : w.log WORKSPACE_SOURCE = w.river := if_pos rfl

theorem baseOf_of_ne (hs : s ≠ WORKSPACE_SOURCE) : w.baseOf s = 0 := if_neg hs

theorem baseOf_workspace : w.baseOf WORKSPACE_SOURCE = w.base := if_pos rfl

theorem mem_sources {x : Source} : x ∈ w.sources ↔
    (∃ bytes, w.lifecycles.get? x.name = some bytes ∧ x = ⟨x.name, bytes, 0⟩) ∨ (∃ bytes, w.river = some bytes ∧ x = ⟨WORKSPACE_SOURCE, bytes, w.base⟩) := by
  unfold World.sources
  rw [List.mem_append, List.mem_filterMap]
  apply or_congr
  · constructor
    · rintro ⟨id, -, hx⟩
      obtain ⟨bytes, hb, rfl⟩ := Option.map_eq_some_iff.mp hx
      exact ⟨bytes, hb, rfl⟩
    rintro ⟨bytes, hb, hx⟩
    refine ⟨x.name, ?_, ?_⟩
    · rw [List.mem_mergeSort]
      exact Dict.mem_keys.mpr ⟨bytes, hb⟩
    · rw [hb, Option.map_some, ← hx]
  rw [Option.mem_toList, Option.map_eq_some_iff]
  constructor
  · rintro ⟨bytes, hb, rfl⟩
    exact ⟨bytes, hb, rfl⟩
  · rintro ⟨bytes, hb, rfl⟩
    exact ⟨bytes, hb, rfl⟩

theorem backed_sources (h : Sound w) : ∀ x ∈ w.sources, Backed w x := by
  intro x hx
  have htext := h.text x.name
  rcases mem_sources.mp hx with ⟨bytes, hb, hxe⟩ | ⟨bytes, hb, hxe⟩
  · have hne : x.name ≠ WORKSPACE_SOURCE := by
      intro he
      rw [he, h.names] at hb
      cases hb
    have hlog : w.log x.name = some bytes := by rw [log_of_ne hne, hb]
    have hbase : w.baseOf x.name = 0 := if_neg hne
    rw [hlog, Option.getD_some] at htext
    exact ⟨by rw [← htext, hbase]; exact hxe, by rw [hlog]; rfl⟩
  have hname : x.name = WORKSPACE_SOURCE := by rw [hxe]
  have hlog : w.log x.name = some bytes := by rw [hname, log_workspace, hb]
  have hbase : w.baseOf x.name = w.base := if_pos hname
  rw [hlog, Option.getD_some] at htext
  refine ⟨?_, by rw [hlog]; rfl⟩
  rw [← htext, hbase]
  exact hxe.trans (by rw [hname])

theorem live_source (hlive : (w.log s).isSome = true) : ∃ x ∈ w.sources, x.name = s := by
  obtain ⟨bytes, hb⟩ := Option.isSome_iff_exists.mp hlive
  by_cases hs : s = WORKSPACE_SOURCE
  · subst hs
    rw [log_workspace] at hb
    exact ⟨_, mem_sources.mpr (.inr ⟨bytes, hb, rfl⟩), rfl⟩
  · rw [log_of_ne hs] at hb
    exact ⟨⟨s, bytes, 0⟩, mem_sources.mpr (.inl ⟨bytes, hb, rfl⟩), rfl⟩

/-! ## Steps -/

/-- The offsets that a client holds. -/
def Client.Holds (client : Client) (cursor : Dict String Nat) : Prop := cursor = client.cursor ∨ cursor = client.last

def World.AtFront (w : World) (s : String) : Prop :=
  ∀ c client cursor, w.clients c = some client → client.Holds cursor → (cursor.get? s).getD 0 ≤ w.baseOf s

/-- A compaction only dies before it stores the base offset when it dropped nothing or no client has read into the river, and a log that
is not there is only begun when no client has read into one of its name. -/
def Safe (w : World) : Action → Prop
  | .append e => e.coalesced = false → w.log (sourceOf e.lifecycleId) = none → w.AtFront (sourceOf e.lifecycleId)
  | .compact now dies => dies = true → ∀ bytes, w.river = some bytes →
      (retainedStart bytes (now - WORKSPACE_EVENT_TTL_SECONDS)).2 = 0 ∨ w.AtFront WORKSPACE_SOURCE
  | _ => True

structure Inv (w : World) : Prop where
  sound : Sound w
  placed : ∀ c client cursor, w.clients c = some client → client.Holds cursor → InPlace w client.joined cursor client.got

theorem Inv.carry {w' : World} (h : Inv w) (hsound : Sound w') (hclients : w'.clients = w.clients)
    (hcarry : ∀ s p, (∃ c client cursor, w.clients c = some client ∧ client.Holds cursor ∧ p = (cursor.get? s).getD 0) →
      ∀ {j got next idx}, Fed (w.feed s) j p got next idx → Fed (w'.feed s) j p got next idx) : Inv w' := by
  refine ⟨hsound, fun c client cursor hc hh => ?_⟩
  rw [hclients] at hc
  obtain ⟨next, idx, hall⟩ := h.placed c client cursor hc hh
  exact ⟨next, idx, fun s => hcarry s _ ⟨c, client, cursor, hc, hh, rfl⟩ (hall s)⟩

variable {client : Client}

theorem Inv.setClient (h : Inv w) (c : Nat)
    (hplaced : ∀ cursor, client.Holds cursor → InPlace w client.joined cursor client.got) :
    Inv (w.setClient c client) := by
  refine ⟨⟨h.sound.names, h.sound.text⟩, fun d other cursor hd hh => ?_⟩
  unfold World.setClient at hd
  dsimp only at hd
  by_cases hdc : d = c
  · rw [hdc, Function.update_self, Option.some.injEq] at hd
    subst hd
    exact hplaced cursor hh
  · rw [Function.update_of_ne hdc] at hd
    exact h.placed d other cursor hd hh

theorem Marked.take (h : Marked w joined got es) {e : RawEvent} (he : (es.take n).getLast? = some e) :
    InPlace w joined e.cursor (got ++ es.take n) := by
  obtain ⟨pre, hpre⟩ := List.getLast?_eq_some_iff.mp he
  have hsplit : es = pre ++ e :: es.drop n := by
    conv_lhs => rw [← List.take_append_drop n es, hpre, List.append_assoc, List.singleton_append]
  rw [hpre]
  exact h pre e _ hsplit

theorem readNewEvents_fed (h : Sound w) {cursor : Dict String Nat} {next : String → Nat} {idx : String → List Nat}
    (hfed : AllFed w joined cursor got next idx) (limit : Option Nat) :
    ∃ cut, Goes w joined got limit next idx (fun t => ∃ x ∈ w.sources, x.name = t) (readNewEvents w.sources cursor limit).2
      (readNewEvents w.sources cursor limit).1 cut := by
  have hmarked : Marked w joined got [] := by
    intro pre e post heq
    simp at heq
  exact @tailSources_fed w joined got limit w.sources ⟨[], cursor⟩ next idx (backed_sources h)
    (by rw [List.append_nil]; exact hfed) hmarked

theorem Inv.read (h : Inv w) {c : Nat} (hc : w.clients c = some client) (limit : Option Nat) (delivered : Nat) :
    Inv (w.setClient c (w.readFor client limit delivered)) := by
  obtain ⟨next, idx, hall⟩ := h.placed c client client.cursor hc (.inl rfl)
  obtain ⟨cut, hmarked, -, next', idx', -, hend, -⟩ := readNewEvents_fed h.sound hall limit
  have hlast : InPlace w client.joined (w.readFor client limit delivered).last (w.readFor client limit delivered).got := by
    unfold World.readFor
    dsimp only
    cases hg : ((readNewEvents w.sources client.cursor limit).1.take delivered).getLast? with
    | none =>
      rw [List.getLast?_eq_none_iff.mp hg, List.append_nil]
      exact h.placed c client client.last hc (.inr rfl)
    | some e => exact hmarked.take hg
  apply h.setClient
  rintro cursor (rfl | rfl)
  · by_cases hfull : (readNewEvents w.sources client.cursor limit).1.length ≤ delivered
    · unfold World.readFor
      dsimp only
      rw [if_pos hfull, List.take_of_length_le hfull]
      exact ⟨next', idx', hend⟩
    have heq : (w.readFor client limit delivered).cursor = (w.readFor client limit delivered).last := if_neg hfull
    rw [heq]
    exact hlast
  · exact hlast

theorem Fed.fresh {f : Feed} (hi : i ≤ f.held.length) (hd : f.dropped ≤ f.history.length)
    (hp : f.live = true → p = f.base + room (f.held.take i)) : Fed f (f.dropped + i) p [] (f.dropped + i) [] := by
  have hwithin : f.dropped + i ≤ f.history.length := by
    rw [Feed.held, List.length_drop] at hi
    omega
  refine ⟨rfl, List.Pairwise.nil, fun j hj => (by cases hj), fun j hj => (by cases hj), Nat.le_refl _, hwithin,
    fun j e hj _ _ _ hjoin => absurd hj (Nat.not_lt.mpr hjoin), fun hlive => ?_⟩
  exact .inr ⟨Nat.le_add_right _ _, hwithin, by rw [Nat.add_sub_cancel_left]; exact hp hlive⟩

theorem initial_place (h : Sound w) (now : Int) (s : String) : ∃ i ≤ (w.feed s).held.length,
    (w.feed s).live = true → ((w.initialEventOffsets now).get? s).getD 0 = (w.feed s).base + room ((w.feed s).held.take i) := by
  have htext := h.text s
  by_cases hs : s = WORKSPACE_SOURCE
  · subst hs
    rw [log_workspace] at htext
    cases hr : w.river with
    | none => exact ⟨0, Nat.zero_le _, fun hlive => by simp [World.feed, log_workspace, hr] at hlive⟩
    | some bytes =>
      rw [hr, Option.getD_some] at htext
      obtain ⟨i, hi, hoff⟩ := firstRetainedOffset_textOf (w.feed WORKSPACE_SOURCE).held (now - WORKSPACE_EVENT_TTL_SECONDS)
      refine ⟨i, hi, fun _ => ?_⟩
      have hbase : (w.feed WORKSPACE_SOURCE).base = w.base := baseOf_workspace
      unfold World.initialEventOffsets
      rw [hr]
      dsimp only
      rw [Dict.get?_set_self, Option.getD_some, htext, hoff, hbase]
  · have hget : (w.initialEventOffsets now).get? s =
        (w.lifecycles.get? s).map fun _ => lifecycleOffset ((w.lifecycles.get? s).getD []) now := by
      unfold World.initialEventOffsets
      dsimp only
      split
      · exact Dict.get?_mapKeyed _ _ _
      · rw [Dict.get?_set_ne _ _ (Ne.symm hs)]
        exact Dict.get?_mapKeyed _ _ _
    have hbase : (w.feed s).base = 0 := baseOf_of_ne hs
    rw [log_of_ne hs] at htext
    cases hl : w.lifecycles.get? s with
    | none => exact ⟨0, Nat.zero_le _, fun hlive => by simp [World.feed, log_of_ne hs, hl] at hlive⟩
    | some bytes =>
      rw [hl, Option.getD_some] at htext
      rw [hget, hl, Option.map_some, Option.getD_some, Option.getD_some, hbase, htext]
      unfold lifecycleOffset
      by_cases hdorm : lifecycleIsDormant (logPayloads (textOf (w.feed s).held)) now = true
      · rw [if_pos hdorm]
        exact ⟨_, Nat.le_refl _, fun _ => by rw [List.take_length, Nat.zero_add, length_textOf]⟩
      rw [if_neg hdorm]
      obtain ⟨i, hi, hoff⟩ := firstRetainedOffset_textOf (w.feed s).held (now - REPLAY_WINDOW_SECONDS)
      exact ⟨i, hi, fun _ => by rw [hoff, Nat.zero_add]⟩

/-! ## What happens to the logs -/

theorem held_length (w : World) (s : String) : (w.feed s).held.length = (w.feed s).history.length - (w.feed s).dropped := List.length_drop

theorem Sound.dropped_of_gone (h : Sound w) (hs : w.log s = none) : (w.feed s).dropped = (w.feed s).history.length := by
  have htext := h.text s
  rw [hs, Option.getD_none] at htext
  have hlen := congrArg List.length htext
  rw [length_textOf, List.length_nil] at hlen
  have hheld := congrArg List.length (room_eq_zero hlen.symm)
  rw [held_length, List.length_nil] at hheld
  have := dropped_le w s
  omega

theorem dropped_eq {w : World} {rows : List Event} (hlog : (w.log s).getD [] = textOf rows) :
    w.dropped s = (w.history s).length - rows.length := by
  rw [World.dropped, hlog, count_textOf]

theorem firstFrom_eq (h : Sound w) {offsets : Dict String Nat} (hi : i ≤ (w.feed s).held.length)
    (hp : (w.feed s).live = true → (offsets.get? s).getD 0 = (w.feed s).base + room ((w.feed s).held.take i)) :
    w.firstFrom offsets s = (w.feed s).dropped + i := by
  have htext := h.text s
  have hle := dropped_le w s
  have hlen := held_length w s
  have hh : (w.feed s).history = w.history s := rfl
  have hb : (w.feed s).base = w.baseOf s := rfl
  rw [hh] at hle hlen
  unfold World.firstFrom
  rw [htext]
  cases hlive : (w.feed s).live with
  | true =>
    rw [hp hlive, hb, Nat.add_sub_cancel_left, drop_textOf, count_textOf, List.length_drop]
    omega
  | false =>
    have hgone : w.log s = none := by simpa [World.feed] using hlive
    have hd := h.dropped_of_gone hgone
    have hnil : (w.feed s).held = [] := by rw [Feed.held, hd, List.drop_length]
    rw [hnil, List.length_nil] at hi
    rw [hd, Nat.le_zero.mp hi, hnil, hh]
    have hempty : textOf [] = [] := rfl
    rw [hempty, List.drop_nil]
    rfl

theorem Inv.connect (h : Inv w) (c : Nat) (now : Int) : Inv (w.setClient c ⟨w.initialEventOffsets now, w.initialEventOffsets now, [],
    w.firstFrom (w.initialEventOffsets now)⟩) := by
  apply h.setClient
  intro cursor hh
  have hcursor : cursor = w.initialEventOffsets now := hh.elim id id
  subst hcursor
  choose i hi hoff using initial_place h.sound now
  refine ⟨w.firstFrom (w.initialEventOffsets now), fun _ => [], fun s => ?_⟩
  have hfresh := Fed.fresh (hi s) (dropped_le w s) (hoff s)
  rw [← firstFrom_eq h.sound (hi s) (hoff s)] at hfresh
  exact hfresh

theorem log_write (w : World) (s t : String) (bytes : Bytes) : (w.write s bytes).log t = if t = s then some bytes else w.log t := by
  unfold World.write
  by_cases hs : s = WORKSPACE_SOURCE
  · subst hs
    rw [if_pos rfl]
    unfold World.log
    by_cases ht : t = WORKSPACE_SOURCE
    · rw [if_pos ht, if_pos ht]
    · rw [if_neg ht, if_neg ht, if_neg ht]
  rw [if_neg hs]
  unfold World.log
  by_cases ht : t = WORKSPACE_SOURCE
  · rw [if_pos ht, if_pos ht, if_neg (fun he => hs (he.symm.trans ht))]
  · rw [if_neg ht, if_neg ht, Dict.get?_set]
    simp only [eq_comm]

theorem write_base (w : World) (s t : String) (bytes : Bytes) : (w.write s bytes).baseOf t = w.baseOf t := by
  unfold World.write World.baseOf
  by_cases hs : s = WORKSPACE_SOURCE
  · rw [if_pos hs]
  · rw [if_neg hs]

theorem write_names (h : Sound w) (s : String) (bytes : Bytes) :
    (w.write s bytes).lifecycles.get? WORKSPACE_SOURCE = none := by
  unfold World.write
  by_cases hs : s = WORKSPACE_SOURCE
  · rw [if_pos hs]
    exact h.names
  · rw [if_neg hs, Dict.get?_set_ne _ _ hs]
    exact h.names

section
variable {e : Event} (hc : e.coalesced = false)
include hc

theorem append_log (t : String) : (w.append e).log t = if t = sourceOf e.lifecycleId then
    some ((w.log (sourceOf e.lifecycleId)).getD [] ++ textOf [e]) else w.log t := by
  unfold World.append
  rw [hc, textOf_singleton]
  exact log_write w _ t _

theorem append_history (t : String) : (w.append e).history t = if t = sourceOf e.lifecycleId then w.history t ++ [e] else w.history t := by
  unfold World.append
  rw [hc, if_neg Bool.false_ne_true]
  dsimp only
  by_cases ht : t = sourceOf e.lifecycleId
  · rw [if_pos ht, ht, Function.update_self]
  · rw [if_neg ht, Function.update_of_ne ht]

theorem append_base (t : String) : (w.append e).baseOf t = w.baseOf t := by
  unfold World.append
  rw [hc]
  exact write_base w _ t _

theorem append_other {t : String} (ht : t ≠ sourceOf e.lifecycleId) : (w.append e).feed t = w.feed t ∧ (w.append e).log t = w.log t := by
  have hlog := append_log hc t (w := w)
  have hhist := append_history hc t (w := w)
  rw [if_neg ht] at hlog hhist
  exact ⟨by rw [World.feed, World.feed, World.dropped, World.dropped, hlog, hhist, append_base hc], hlog⟩

theorem append_own (h : Sound w) : (w.append e).feed (sourceOf e.lifecycleId) =
    ⟨w.history (sourceOf e.lifecycleId) ++ [e], w.dropped (sourceOf e.lifecycleId), true, w.baseOf (sourceOf e.lifecycleId)⟩ ∧
      ((w.append e).log (sourceOf e.lifecycleId)).getD [] = textOf ((w.append e).feed (sourceOf e.lifecycleId)).held := by
  have htext := h.text (sourceOf e.lifecycleId)
  have hle := dropped_le w (sourceOf e.lifecycleId)
  have hlen := held_length w (sourceOf e.lifecycleId)
  have hlog := append_log hc (sourceOf e.lifecycleId) (w := w)
  have hhist := append_history hc (sourceOf e.lifecycleId) (w := w)
  generalize sourceOf e.lifecycleId = s at *
  rw [if_pos rfl] at hlog hhist
  rw [htext, ← textOf_append] at hlog
  have hdropped : (w.append e).dropped s = w.dropped s := by
    have hd : (w.feed s).dropped = w.dropped s := rfl
    have hh : (w.feed s).history = w.history s := rfl
    rw [hd, hh] at hle hlen
    rw [dropped_eq (by rw [hlog, Option.getD_some]), hhist, List.length_append, List.length_append, List.length_singleton]
    omega
  have hfeed : (w.append e).feed s = ⟨w.history s ++ [e], w.dropped s, true, w.baseOf s⟩ := by
    rw [World.feed, hhist, hdropped, hlog, append_base hc]
    rfl
  refine ⟨hfeed, ?_⟩
  rw [hfeed, hlog, Option.getD_some]
  exact congrArg textOf (List.drop_append_of_le_length hle).symm

end

theorem Inv.append (h : Inv w) {e : Event} (hsafe : Safe w (.append e)) : Inv (w.append e) := by
  by_cases hc : e.coalesced = true
  · have hsame : w.append e = w := if_pos hc
    rw [hsame]
    exact h
  have hc := eq_false_of_ne_true hc
  obtain ⟨hfeed, htext⟩ := append_own hc h.sound
  apply h.carry
  · refine ⟨?_, fun t => ?_⟩
    · unfold World.append
      rw [hc]
      exact write_names h.sound _ _
    by_cases ht : t = sourceOf e.lifecycleId
    · rw [ht]
      exact htext
    obtain ⟨hf, hl⟩ := append_other hc ht (w := w)
    rw [hf, hl]
    exact h.sound.text t
  · unfold World.append World.write
    rw [hc, if_neg Bool.false_ne_true]
    dsimp only
    split <;> rfl
  rintro t p ⟨c, client, cursor, hclient, hh, rfl⟩ j got next idx hfed
  by_cases ht : t = sourceOf e.lifecycleId
  · rw [ht] at hfed ⊢
    rw [hfeed]
    cases hlive : (w.log (sourceOf e.lifecycleId)).isSome with
    | true =>
      have happend := hfed.append hlive (dropped_le w _) e
      rw [World.feed, hlive] at happend
      exact happend
    | false =>
      have hnone : w.log (sourceOf e.lifecycleId) = none := by simpa using hlive
      have hbegin := hfed.begin (hsafe hc hnone c client cursor hclient hh) (dropped_le w _) e
      rw [← h.sound.dropped_of_gone hnone] at hbegin
      exact hbegin
  · rw [(append_other hc ht).1]
    exact hfed

theorem Inv.compact (h : Inv w) {now : Int} {dies : Bool} (hsafe : Safe w (.compact now dies)) : Inv (w.compact now dies) := by
  unfold World.compact
  cases hr : w.river with
  | none => exact h
  | some bytes =>
    dsimp only
    by_cases hzero : (retainedStart bytes (now - WORKSPACE_EVENT_TTL_SECONDS)).2 = 0
    · rw [if_pos hzero]
      exact h
    rw [if_neg hzero]
    have htext := h.sound.text WORKSPACE_SOURCE
    rw [log_workspace, hr, Option.getD_some] at htext
    obtain ⟨k, hk, hcut⟩ := retainedStart_textOf (w.feed WORKSPACE_SOURCE).held (now - WORKSPACE_EVENT_TTL_SECONDS)
    rw [← htext] at hcut
    generalize hw' : ({ w with river := some (bytes.drop (retainedStart bytes (now - WORKSPACE_EVENT_TTL_SECONDS)).1),
                               base := if dies then w.base else w.base + (retainedStart bytes (now - WORKSPACE_EVENT_TTL_SECONDS)).1 } :
      World) = w'
    have hlog : w'.log WORKSPACE_SOURCE = some (textOf ((w.feed WORKSPACE_SOURCE).held.drop k)) := by
      rw [log_workspace, ← hw', hcut, htext, drop_textOf]
    have hother : ∀ t, t ≠ WORKSPACE_SOURCE → w'.feed t = w.feed t ∧ w'.log t = w.log t := by
      intro t ht
      have hl : w'.log t = w.log t := by rw [log_of_ne ht, log_of_ne ht, ← hw']
      refine ⟨?_, hl⟩
      rw [World.feed, World.feed, World.dropped, World.dropped, hl, baseOf_of_ne ht, baseOf_of_ne ht, ← hw']
    have hfeed : w'.feed WORKSPACE_SOURCE = ⟨w.history WORKSPACE_SOURCE, w.dropped WORKSPACE_SOURCE + k, true,
        if dies then w.base else w.base + room ((w.feed WORKSPACE_SOURCE).held.take k)⟩ := by
      have hhist : w'.history = w.history := by rw [← hw']
      have hbase : w'.base = if dies then w.base else w.base + room ((w.feed WORKSPACE_SOURCE).held.take k) := by rw [← hw', hcut]
      have hdropped : w'.dropped WORKSPACE_SOURCE = w.dropped WORKSPACE_SOURCE + k := by
        have hle := dropped_le w WORKSPACE_SOURCE
        have hlen := held_length w WORKSPACE_SOURCE
        have hd : (w.feed WORKSPACE_SOURCE).dropped = w.dropped WORKSPACE_SOURCE := rfl
        have hh : (w.feed WORKSPACE_SOURCE).history = w.history WORKSPACE_SOURCE := rfl
        rw [hd, hh] at hle hlen
        rw [dropped_eq (by rw [hlog, Option.getD_some]), hhist, List.length_drop]
        omega
      rw [World.feed, hhist, hdropped, hlog, baseOf_workspace, hbase]
      rfl
    apply h.carry
    · refine ⟨by rw [← hw']; exact h.sound.names, fun t => ?_⟩
      by_cases ht : t = WORKSPACE_SOURCE
      · rw [ht, hlog, hfeed, Option.getD_some]
        exact congrArg textOf (List.drop_drop ..)
      obtain ⟨hf, hl⟩ := hother t ht
      rw [hf, hl]
      exact h.sound.text t
    · rw [← hw']
    rintro t p ⟨c, client, cursor, hclient, hh, rfl⟩ j got next idx hfed
    by_cases ht : t = WORKSPACE_SOURCE
    · subst ht
      have hlive : (w.log WORKSPACE_SOURCE).isSome = true := by rw [log_workspace, hr]; rfl
      rw [hfeed]
      cases dies with
      | false =>
        have hcutfed := hfed.cut k
        rw [World.feed, hlive, baseOf_workspace] at hcutfed
        exact hcutfed
      | true =>
        have hfront : w.AtFront WORKSPACE_SOURCE := (hsafe rfl bytes hr).resolve_left hzero
        have hdie := hfed.die k (hfront c client cursor hclient hh)
        rw [World.feed, hlive, baseOf_workspace] at hdie
        exact hdie
    · rw [(hother t ht).1]
      exact hfed

theorem Inv.remove (h : Inv w) (goes : String → Bool) :
    Inv { w with lifecycles := w.lifecycles.filterKeys fun id => !goes id } := by
  generalize hw' : ({ w with lifecycles := w.lifecycles.filterKeys fun id => !goes id } : World) = w'
  have hlog : ∀ t, w'.log t = w.log t ∨ (w'.log t = none ∧ t ≠ WORKSPACE_SOURCE) := by
    intro t
    by_cases ht : t = WORKSPACE_SOURCE
    · left
      rw [ht, log_workspace, log_workspace, ← hw']
    rw [log_of_ne ht, log_of_ne ht, ← hw']
    dsimp only
    rw [Dict.get?_filterKeys]
    split
    · exact .inl rfl
    · exact .inr ⟨rfl, ht⟩
  have hfeed : ∀ t, w'.feed t = w.feed t ∧ w'.log t = w.log t ∨
      w'.feed t = ⟨w.history t, (w.history t).length, false, w.baseOf t⟩ ∧ w'.log t = none := by
    intro t
    have hbase : w'.baseOf t = w.baseOf t := by rw [← hw']; rfl
    have hhist : w'.history t = w.history t := by rw [← hw']
    rcases hlog t with hl | ⟨hl, ht⟩
    · exact .inl ⟨by rw [World.feed, World.feed, World.dropped, World.dropped, hl, hbase, hhist], hl⟩
    refine .inr ⟨?_, hl⟩
    rw [World.feed, World.dropped, hl, hbase, hhist]
    rfl
  apply h.carry
  · refine ⟨?_, fun t => ?_⟩
    · rw [← hw']
      dsimp only
      rw [Dict.get?_filterKeys, h.sound.names]
      split <;> rfl
    rcases hfeed t with ⟨hf, hl⟩ | ⟨hf, hl⟩
    · rw [hf, hl]
      exact h.sound.text t
    · rw [hf, hl, Feed.held, List.drop_length]
      rfl
  · rw [← hw']
  rintro t p - j got next idx hfed
  rcases hfeed t with ⟨hf, -⟩ | ⟨hf, -⟩
  · rw [hf]
    exact hfed
  · rw [hf]
    exact hfed.gone (dropped_le w t)

theorem step_inv (w : World) (a : Action) (w' : World) (h : Inv w) (hsafe : Safe w a) (hs : riverSystem.step w a = some w') : Inv w' := by
  have hstep : w.step a = some w' := hs
  cases a with
  | append e =>
    simp only [World.step] at hstep
    split at hstep
    · cases hstep
    rw [Option.some.injEq] at hstep
    subst hstep
    exact h.append hsafe
  | compact now dies =>
    rw [World.step, Option.some.injEq] at hstep
    subst hstep
    exact h.compact hsafe
  | remove goes =>
    rw [World.step, Option.some.injEq] at hstep
    subst hstep
    exact h.remove goes
  | connect c now =>
    rw [World.step, Option.some.injEq] at hstep
    subst hstep
    exact h.connect c now
  | read c limit delivered =>
    obtain ⟨client, hc, rfl⟩ := Option.map_eq_some_iff.mp hstep
    exact h.read hc limit delivered
  | ready c =>
    obtain ⟨client, hc, rfl⟩ := Option.map_eq_some_iff.mp hstep
    apply h.setClient
    rintro cursor (rfl | rfl)
    · exact h.placed c client _ hc (.inl rfl)
    · exact h.placed c client _ hc (.inl rfl)
  | resume c =>
    obtain ⟨client, hc, hstep⟩ := Option.bind_eq_some_iff.mp hstep
    split at hstep
    · cases hstep
    rw [Option.some.injEq] at hstep
    subst hstep
    apply h.setClient
    rintro cursor (rfl | rfl)
    · exact h.placed c client _ hc (.inr rfl)
    · exact h.placed c client _ hc (.inr rfl)

theorem init_inv : Inv riverSystem.init := by
  refine ⟨⟨rfl, fun s => ?_⟩, fun c client cursor hc => by cases hc⟩
  have hlog : riverSystem.init.log s = none := by
    unfold World.log
    split <;> rfl
  have hheld : (riverSystem.init.feed s).held = [] := List.drop_nil
  rw [hlog, hheld]
  rfl

def World.Records (w : World) (source : String) (rs : List RawEvent) (idx : List Nat) : Prop :=
  (rs.filter fun r => r.source = source).map (fun r => some (r.data, r.payload)) = idx.map fun j => ((w.history source)[j]?).map wire

/-- A client that goes on from offsets that it holds: of each source it has received some events in order, and whatever the log still
has behind the connection's start is among them, or in this read, or behind a limit and all of the source that was read. -/
def World.GapFree (w : World) : Prop := ∀ c client cursor limit source, w.clients c = some client → client.Holds cursor →
  ∃ idx more, w.Records source client.got idx ∧ w.Records source (readNewEvents w.sources cursor limit).1 more ∧
    (idx ++ more).Pairwise (· < ·) ∧ (∀ j ∈ idx ++ more, client.joined source ≤ j) ∧
      ∀ j e, w.dropped source ≤ j → (w.history source)[j]? = some e → e.kind ≠ heartbeatKind → client.joined source ≤ j →
        j ∈ idx ++ more ∨ (Cut limit (readNewEvents w.sources cursor limit).1 ∧ ∀ i ∈ idx ++ more, i < j)

/-- **The river is gap-free and duplicate-free in every state that safe actions reach.** -/
theorem river_gap_free (h : Reachable riverSystem Safe w) : w.GapFree := by
  have hinv : Inv w := h.invariant init_inv step_inv
  intro c client cursor limit source hc hh
  obtain ⟨next, idx, hall⟩ := hinv.placed c client cursor hc hh
  obtain ⟨cut, -, hcut, next', idx', hle, hall', hend⟩ := readNewEvents_fed hinv.sound hall limit
  have hbefore := hall source
  have hafter := hall' source
  obtain ⟨more, hmore⟩ := (hle source).2
  rw [← hmore] at hafter
  have hrecords : w.Records source (readNewEvents w.sources cursor limit).1 more := by
    have hreceived := hafter.received
    rw [List.filter_append, List.map_append, List.map_append, hbefore.received] at hreceived
    exact List.append_cancel_left hreceived
  refine ⟨idx source, more, hbefore.received, hrecords, hafter.ordered, hafter.since, fun j e hd he hk hj => ?_⟩
  have hjlt : j < (w.history source).length := (List.getElem?_eq_some_iff.mp he).1
  by_cases hn : j < next' source
  · exact .inl (hafter.complete j e hn hd he hk hj)
  cases hc' : cut with
  | true => exact .inr ⟨hcut hc', fun i hi => (hafter.below i hi).trans_le (Nat.not_lt.mp hn)⟩
  | false =>
    cases hlive : (w.feed source).live with
    | true =>
      rw [hend hc' source (live_source hlive)] at hn
      exact absurd hjlt hn
    | false =>
      have hgone : w.log source = none := by simpa [World.feed] using hlive
      have hdrop := hinv.sound.dropped_of_gone hgone
      have hd' : (w.feed source).dropped ≤ j := hd
      rw [hdrop] at hd'
      exact absurd hjlt (Nat.not_lt.mpr hd')

end

/-! ## A compaction that dies -/

def workspaceEvent (id ts : String) : Event :=
  ⟨observerEventSchema, id, ts, "note", .declared, .model, [], none, none, none, none, none⟩

def firstEvent : Event := workspaceEvent "e1" "2026-01-01T00:00:00+00:00"

def secondEvent : Event := workspaceEvent "e2" "2026-01-01T02:00:00+00:00"

def startOfDay : Int := 1767225600000000

def loggedWorld : World := riverSystem.init.append firstEvent

def connectedWorld : World :=
  loggedWorld.setClient 0 ⟨loggedWorld.initialEventOffsets startOfDay, loggedWorld.initialEventOffsets startOfDay, [],
    loggedWorld.firstFrom (loggedWorld.initialEventOffsets startOfDay)⟩

theorem connected_reachable : Reachable riverSystem Safe connectedWorld := by
  have hlogged : riverSystem.step riverSystem.init (.append firstEvent) = some loggedWorld := by
    simp [riverSystem, World.step, firstEvent, workspaceEvent, loggedWorld]
  have hfirst : Safe riverSystem.init (.append firstEvent) := fun _ _ c client cursor hc => by cases hc
  have hconnect : Safe loggedWorld (.connect 0 startOfDay) := trivial
  exact .tail (.tail .refl hfirst hlogged) hconnect rfl

theorem river_gap_free_connected : connectedWorld.GapFree := river_gap_free connected_reachable

def dyingRun : List Action :=
  [.append firstEvent, .connect 0 (startOfDay + seconds 7200), .compact (startOfDay + seconds 7200) true, .append secondEvent]

def misses (w : World) : Bool :=
  (w.clients 0).any fun client =>
    (client.got.isEmpty && (readNewEvents w.sources client.cursor none).1.isEmpty) &&
      ((w.history WORKSPACE_SOURCE).map (·.kind) = ["note", "note"] &&
      (w.dropped WORKSPACE_SOURCE ≤ 1 && client.joined WORKSPACE_SOURCE ≤ 1))

theorem dying_run_misses : (runFrom riverSystem riverSystem.init dyingRun).any misses = true := by decide +kernel

/-- A compaction that dies between its two writes makes a reader's offset skip what it has not read. -/
theorem dying_compaction_skips : ¬ ∀ w, Reachable riverSystem always w → w.GapFree := by
  intro h
  obtain ⟨w, hw, hmiss⟩ := (Option.any_eq_true _ _).mp dying_run_misses
  obtain ⟨client, hc, hmiss⟩ := (Option.any_eq_true _ _).mp hmiss
  simp only [Bool.and_eq_true, decide_eq_true_eq, List.isEmpty_iff] at hmiss
  obtain ⟨⟨hgot, hread⟩, hhist, hd, hj⟩ := hmiss
  obtain ⟨idx, more, hidx, hmore, -, -, hall⟩ :=
    h w (reachable_of_runFrom hw) 0 client client.cursor none WORKSPACE_SOURCE hc (.inl rfl)
  have hsecond := congrArg (fun l => l[1]?) hhist
  rw [List.getElem?_map] at hsecond
  obtain ⟨e, he, hkind⟩ := Option.map_eq_some_iff.mp hsecond
  have hkind : e.kind ≠ heartbeatKind := by
    rw [hkind]
    decide
  have hnil {r : List RawEvent} {i : List Nat} (hr : w.Records WORKSPACE_SOURCE r i) (hempty : r = []) : i = [] := by
    rw [World.Records, hempty] at hr
    exact List.map_eq_nil_iff.mp hr.symm
  rcases hall 1 e hd he hkind hj with hin | ⟨⟨-, n, hn, -⟩, -⟩
  · rw [hnil hidx hgot, hnil hmore hread] at hin
    cases hin
  · cases hn

end River

end AgentsRemember.Observer
