import AgentsRemember.Logs.ReadBackSound

/-!
# Torn appends to the event log

An append to an event log may be cut by a crash. `CleanStep` says which appends
and cuts the two readers recover from: the append starts a line, and what a cut
leaves of the line is a proper part of it in whole characters. After any run of
such steps both readers give the events whose appends completed
(`torn_appends_recovered`).
-/

namespace AgentsRemember.Logs

open Lib Lib.JsonText Lib.Lines

/-- One call of `append`; `cut` is the number of bytes that reached the file before a crash. -/
structure Attempt where
  event : Event
  cut : Option Nat

section
variable {κ : Type} [DecidableEq κ] (l : Layout κ)

def attempt (root : κ → Directory) (a : Attempt) : κ → Directory := EventStore.write l root a.event a.cut

def attempts (as : List Attempt) : κ → Directory := as.foldl (attempt l) fun _ => ⟨none, none⟩

/-- The events whose append completed. -/
def completed (as : List Attempt) : List Event := (as.filter fun a => a.cut.isNone).map Attempt.event

def AtBoundary (file : Option Bytes) : Prop := ∀ b ∈ (file.getD []).getLast?, b = 10

def CutsInside (line : List Char) (n : Nat) : Prop := ∃ p q, line = p ++ q ∧ q ≠ [] ∧ (Utf8.encode p).length = n

def CleanStep (root : κ → Directory) (a : Attempt) : Prop :=
  a.event.coalesced = false → Unbroken eventModel a.event ∧ AtBoundary (root (l.dir a.event.lifecycleId)).log ∧
    ∀ n ∈ a.cut, CutsInside (eventLine a.event) n

def CleanRun (root : κ → Directory) : List Attempt → Prop
  | [] => True
  | a :: as => CleanStep l root a ∧ CleanRun (attempt l root a) as

/-- The last heartbeat kept for a lifecycle. -/
def lastHeartbeat (dir : κ) (events : List Event) : Option Event :=
  (events.filter fun e => e.coalesced && l.lifecycle (e.lifecycleId.getD "") = dir).getLast?

/-! ## What a run keeps -/

def Torn (tail : List Char) : Prop :=
  tail = [] ∨ ∃ e q, Unbroken eventModel e ∧ eventLine e = tail ++ q ∧ q ≠ []

structure Holds (dir : Directory) (rows : List Event) (heartbeat : Option Event) : Prop where
  log : ∃ tail, dir.log.getD [] = Utf8.encode (logText eventModel rows ++ tail) ∧ Torn tail
  rows : ∀ e ∈ rows, Unbroken eventModel e
  sidecar : dir.sidecar = heartbeat.map fun e => Utf8.encode (lineText (eventLine e))
  heartbeat : ∀ e ∈ heartbeat, e.kind = heartbeatKind

theorem newline_not_mem (e : Event) : '\n' ∉ eventLine e := by
  intro h
  exact absurd ((mem_modelDumpJson_break eventModel (by decide)).mp h).2 (by decide)

variable {tail : List Char} {d : Directory} {rows : List Event} {heartbeat : Option Event} {e : Event} {n : Nat}
  {as : List Attempt}

theorem Torn.no_break (h : Torn tail) : ∀ c ∈ tail, isLineBreak c = false := by
  rcases h with rfl | ⟨e, q, he, hline, -⟩
  · intro c hc
    cases hc
  intro c hc
  refine (unbroken_iff eventModel e).mp he c ?_
  rw [← eventLine, hline]
  exact List.mem_append_left q hc

theorem tail_eq_nil {file : Option Bytes} {cs : List Char} (hfile : file.getD [] = Utf8.encode (cs ++ tail))
    (hb : AtBoundary file) (ht : Torn tail) : tail = [] := by
  rcases List.eq_nil_or_concat tail with rfl | ⟨tail', c, rfl⟩
  · rfl
  have hne : String.utf8EncodeChar c ≠ [] := String.utf8EncodeChar_ne_nil
  have hlast : (file.getD []).getLast? = some ((String.utf8EncodeChar c).getLast hne) := by
    rw [hfile, List.concat_eq_append, ← List.append_assoc, Utf8.encode_append, Utf8.encode_cons, Utf8.encode_nil, List.append_nil,
      List.getLast?_append_of_ne_nil _ hne, List.getLast?_eq_some_getLast hne]
  have hten := hb _ (by rw [hlast]; rfl)
  have hmem : (10 : UInt8) ∈ Utf8.encode [c] := by
    rw [Utf8.encode_cons, Utf8.encode_nil, List.append_nil, ← hten]
    exact List.getLast_mem hne
  have hnl := Utf8.newline_mem_encode.mp hmem
  have hbreak := ht.no_break c (by rw [List.concat_eq_append]; simp)
  rw [← List.mem_singleton.mp hnl] at hbreak
  exact absurd hbreak (by decide)

theorem Holds.boundary (h : Holds d rows heartbeat) (hb : AtBoundary d.log) :
    d.log.getD [] = Utf8.encode (logText eventModel rows) := by
  obtain ⟨tail, hfile, htorn⟩ := h.log
  rw [hfile, tail_eq_nil hfile hb htorn, List.append_nil]

theorem Holds.line (h : Holds d rows heartbeat) (he : Unbroken eventModel e) (hb : AtBoundary d.log) :
    Holds { d with log := some (d.log.getD [] ++ Utf8.encode (lineText (eventLine e))) } (rows ++ [e]) heartbeat :=
  { h with
    log := by
      refine ⟨[], ?_, .inl rfl⟩
      rw [Option.getD_some, h.boundary hb, List.append_nil, logText_append, Utf8.encode_append]
      simp [logText, eventLine]
    rows := by
      intro e' he'
      rcases List.mem_append.mp he' with he' | he'
      · exact h.rows e' he'
      · rw [List.mem_singleton.mp he']
        exact he }

theorem take_encode {line : List Char} (h : CutsInside line n) :
    ∃ p q, line = p ++ q ∧ q ≠ [] ∧ (Utf8.encode (lineText line)).take n = Utf8.encode p := by
  obtain ⟨p, q, rfl, hq, hn⟩ := h
  refine ⟨p, q, rfl, hq, ?_⟩
  rw [lineText, List.append_assoc, Utf8.encode_append]
  exact List.take_left' hn

theorem Holds.torn (h : Holds d rows heartbeat) (he : Unbroken eventModel e) (hb : AtBoundary d.log)
    (hn : CutsInside (eventLine e) n) :
    Holds { d with log := some (d.log.getD [] ++ (Utf8.encode (lineText (eventLine e))).take n) } rows heartbeat :=
  { h with
    log := by
      obtain ⟨p, q, hline, hq, htake⟩ := take_encode hn
      refine ⟨p, ?_, .inr ⟨e, q, he, hline, hq⟩⟩
      rw [Option.getD_some, h.boundary hb, htake, Utf8.encode_append] }

theorem coalesced_kind (h : e.coalesced = true) : e.kind = heartbeatKind := by
  simp only [Event.coalesced, Bool.and_eq_true, decide_eq_true_eq] at h
  exact h.2

theorem Holds.beat (h : Holds d rows heartbeat) (he : e.coalesced = true) :
    Holds { d with sidecar := some (Utf8.encode (lineText (eventLine e))) } rows (some e) where
  log := h.log
  rows := h.rows
  sidecar := rfl
  heartbeat := by
    rintro e' ⟨⟩
    exact coalesced_kind he

theorem completed_append (as : List Attempt) (a : Attempt) : completed (as ++ [a]) =
    completed as ++ if a.cut.isNone then [a.event] else [] := by
  cases h : a.cut.isNone <;> simp [completed, h]

theorem logged_append (dir : κ) (es : List Event) (e : Event) : logged l dir (es ++ [e]) =
    logged l dir es ++ if e.coalesced = false ∧ l.dir e.lifecycleId = dir then [e] else [] := by
  rw [logged, List.filter_append, List.filter_singleton, logged]
  cases e.coalesced <;> simp

theorem lastHeartbeat_append (dir : κ) (es : List Event) (e : Event) : lastHeartbeat l dir (es ++ [e]) =
    if e.coalesced = true ∧ l.lifecycle (e.lifecycleId.getD "") = dir then some e else lastHeartbeat l dir es := by
  rw [lastHeartbeat, List.filter_append, List.filter_singleton, lastHeartbeat]
  by_cases h : e.coalesced = true ∧ l.lifecycle (e.lifecycleId.getD "") = dir
  · have hb : (e.coalesced && decide (l.lifecycle (e.lifecycleId.getD "") = dir)) = true := by simpa using h
    rw [if_pos h, hb, cond_true, List.getLast?_concat]
  have hb : (e.coalesced && decide (l.lifecycle (e.lifecycleId.getD "") = dir)) = false := by
    rw [Bool.eq_false_iff]
    simpa using h
  rw [if_neg h, hb, cond_false, List.append_nil]

theorem holds_attempt {root : κ → Directory} {a : Attempt} {dir : κ}
    (h : Holds (root dir) (logged l dir (completed as)) (lastHeartbeat l dir (completed as))) (ha : CleanStep l root a) :
    Holds (attempt l root a dir) (logged l dir (completed (as ++ [a]))) (lastHeartbeat l dir (completed (as ++ [a]))) := by
  obtain ⟨e, cut⟩ := a
  rw [attempt, EventStore.write, completed_append]
  cases hc : e.coalesced with
  | true =>
    rw [if_pos rfl]
    cases cut with
    | some n => simpa using h
    | none =>
      simp only [Option.isNone_none, if_true, logged_append, lastHeartbeat_append, hc, Bool.true_eq_false, false_and, if_false,
        List.append_nil, true_and]
      by_cases hd : l.lifecycle (e.lifecycleId.getD "") = dir
      · subst hd
        rw [if_pos rfl, Function.update_self]
        exact h.beat hc
      · rw [if_neg hd, Function.update_of_ne (Ne.symm hd)]
        exact h
  | false =>
    obtain ⟨he, hb, hcut⟩ := ha hc
    rw [if_neg (by decide)]
    by_cases hd : l.dir e.lifecycleId = dir
    · subst hd
      rw [Function.update_self]
      cases cut with
      | some n => simpa using h.torn he hb (hcut n rfl)
      | none =>
        simp only [Option.isNone_none, if_true, logged_append, lastHeartbeat_append, hc, and_self, Bool.false_eq_true, false_and,
          if_false]
        exact h.line he hb
    rw [Function.update_of_ne (Ne.symm hd)]
    cases cut with
    | some n => simpa using h
    | none =>
      simp only [Option.isNone_none, if_true, logged_append, lastHeartbeat_append, hc, hd, and_false, Bool.false_eq_true,
        false_and, if_false, List.append_nil]
      exact h

theorem holds_attempts (h : CleanRun l (fun _ => ⟨none, none⟩) as) (dir : κ) :
    Holds (attempts l as dir) (logged l dir (completed as)) (lastHeartbeat l dir (completed as)) := by
  have hrun : ∀ (as before : List Attempt) (root : κ → Directory), CleanRun l root as →
      Holds (root dir) (logged l dir (completed before)) (lastHeartbeat l dir (completed before)) →
      Holds (as.foldl (attempt l) root dir) (logged l dir (completed (before ++ as)))
        (lastHeartbeat l dir (completed (before ++ as))) := by
    intro as
    induction as with
    | nil =>
      intro before root _ hroot
      rwa [List.append_nil]
    | cons a as ih =>
      intro before root hclean hroot
      have hnext := ih (before ++ [a]) (attempt l root a) hclean.2 (holds_attempt l hroot hclean.1)
      rwa [List.append_assoc, List.singleton_append] at hnext
  exact hrun as [] _ h ⟨⟨[], rfl, .inl rfl⟩, by simp [completed, logged], rfl, by simp [completed, lastHeartbeat]⟩

end

theorem loads_torn {tail : List Char} (h : Torn tail) : loads tail = none := by
  rcases h with rfl | ⟨e, q, -, hline, hq⟩
  · rfl
  · exact loads_of_prefix compact (eventModel.dump e) hline hq

theorem log_unlines (rows : List Event) : logText eventModel rows = unlines '\n' (rows.map eventLine) := by
  rw [unlines, List.flatMap_map]
  rfl

variable {d : Directory} {rows : List Event} {heartbeat : Option Event}

theorem readTolerant_holds (h : Holds d rows heartbeat) : readTolerant eventModel d.log = some rows := by
  obtain ⟨tail, hfile, htorn⟩ := h.log
  have hcr : '\r' ∉ logText eventModel rows ++ tail := by
    intro hm
    rcases List.mem_append.mp hm with hm | hm
    · exact cr_not_mem_logText eventModel rows hm
    · exact absurd (htorn.no_break _ hm) (by decide)
  have hlines : (rows.flatMap fun e => split isLineBreak (eventLine e)) = rows.map eventLine := by
    rw [← List.flatMap_singleton' (rows.map _), List.flatMap_map]
    exact List.flatMap_congr fun e he => split_of_all ((unbroken_iff eventModel e).mp (h.rows e he))
  have hrows : ((rows.map eventLine).filter fun l => !isBlank l).filterMap (modelValidateJson eventModel) = rows := by
    clear h hfile hcr hlines
    induction rows with
    | nil => rfl
    | cons e rows ih =>
      obtain ⟨body, hbody⟩ := braces_mem eventModel e
      have hblank : isBlank (eventLine e) = false := not_blank_of_mem (c := '{') (by simp [eventLine, hbody]) (by decide)
      rw [List.map_cons, List.filter_cons_of_pos (by simp [hblank]), List.filterMap_cons, eventLine, modelValidateJson_dump]
      simp only [ih]
  have htail : ((breakLines isLineBreak tail).filter fun l => !isBlank l).filterMap (modelValidateJson eventModel) = [] := by
    by_cases hnil : tail = []
    · rw [hnil]
      rfl
    rw [breakLines_of_all hnil htorn.no_break]
    refine List.filterMap_eq_nil_iff.mpr fun piece hp => ?_
    rw [List.mem_singleton.mp (List.mem_of_mem_filter hp), modelValidateJson, loads_torn htorn]
    rfl
  rw [readTolerant, readLogText_eq, hfile, readText_encode hcr, Option.map_some, splitlines_of_no_cr hcr, log_unlines,
    breakLines_unlines_append isLineBreak (by decide), List.flatMap_map, hlines, List.filter_append, List.filterMap_append, hrows,
    htail, List.append_nil]

theorem readHeartbeat_holds {κ : Type} [DecidableEq κ] (l : Layout κ) {root : κ → Directory} {id : String}
    (h : Holds (root (l.lifecycle id)) rows heartbeat) : readHeartbeatSidecar l root id = some heartbeat := by
  rw [readHeartbeatSidecar, h.sidecar]
  cases heartbeat with
  | none => rfl
  | some e =>
    have hcr : '\r' ∉ lineText (eventLine e) := by
      intro hm
      have hlog : lineText (eventLine e) = logText eventModel [e] := by simp [logText, eventLine]
      exact cr_not_mem_logText eventModel [e] (hlog ▸ hm)
    have hloads : loads (lineText (eventLine e)) = some (.obj (eventModel.dump e)) :=
      loads_dumps_space compact (.obj (eventModel.dump e)) [] ['\n'] (by simp) (by decide)
    simp only [Option.map_some, readText_encode hcr, modelValidateJson, hloads, Option.bind_some, eventModel.validate_dump,
      h.heartbeat e rfl, if_true]

/-! ## The tail -/

theorem isHeartbeat_dump (e : Event) : isHeartbeatEvent e.dump = decide (e.kind = heartbeatKind) := by
  have hkind : field e.dump "kind" = some (text e.kind) := by simp [field_dump, Dict.lookupIn]
  rw [isHeartbeatEvent, hkind]
  rfl

theorem strip_eventLine (e : Event) : strip (eventLine e) = eventLine e := by
  obtain ⟨body, hbody⟩ := braces_mem eventModel e
  rw [eventLine, hbody]
  exact strip_eq_self (by decide) (by decide) body

theorem payloadOf_eventLine (e : Event) : payloadOf (Utf8.encode (eventLine e)) =
    if e.kind = heartbeatKind then none else some (eventLine e, e.dump) := by
  obtain ⟨body, hbody⟩ := braces_mem eventModel e
  have hne : eventLine e ≠ [] := by simp [eventLine, hbody]
  have hloads : loads (eventLine e) = some (.obj e.dump) := loads_dumps compact _
  rw [payloadOf, Utf8.decode_encode]
  simp only [strip_eventLine, if_neg hne, hloads, Option.bind_some, asObject, isHeartbeat_dump, decide_eq_true_eq]

theorem lineOffsets_fst : ∀ (start : Nat) (ls : List Bytes) (rest : Bytes), (lineOffsets start (ls ++ [rest])).1.map Prod.fst = ls
  | _, [], _ => rfl
  | start, [line], rest => rfl
  | start, line :: line' :: ls, rest => by
    have ih := lineOffsets_fst (start + line.length + 1) (line' :: ls) rest
    simp only [List.cons_append, lineOffsets, List.map_cons] at ih ⊢
    rw [ih]

theorem tailLines_none (source : String) : ∀ (lines : List (Bytes × Nat)) (s : TailState),
    ((tailLines source none lines s).1.events.map fun e => (e.data, e.payload)) =
      (s.events.map fun e => (e.data, e.payload)) ++ (lines.map Prod.fst).filterMap payloadOf ∧
    (tailLines source none lines s).2 = false
  | [], s => by simp [tailLines]
  | (record, after) :: lines, s => by
    rw [tailLines, List.map_cons, List.filterMap_cons]
    cases hp : payloadOf record with
    | none => exact tailLines_none source lines _
    | some p =>
      obtain ⟨ih, hflag⟩ := tailLines_none source lines
        ⟨s.events ++ [⟨source, p.1, p.2, s.current.set source after⟩], s.current.set source after⟩
      refine ⟨?_, hflag⟩
      simp only [ih, List.map_append, List.map_cons, List.map_nil, List.append_assoc, List.singleton_append]

theorem newline_byte {cs : List Char} (h : '\n' ∉ cs) : ∀ b ∈ Utf8.encode cs, isNewlineByte b = false := by
  intro b hb
  cases hn : isNewlineByte b with
  | false => rfl
  | true =>
    rw [isNewlineByte, decide_eq_true_eq] at hn
    rw [hn] at hb
    exact absurd (Utf8.newline_mem_encode.mp hb) h

theorem encode_logText (rows : List Event) : Utf8.encode (logText eventModel rows) =
    unlines 10 (rows.map fun e => Utf8.encode (eventLine e)) := by
  induction rows with
  | nil => rfl
  | cons e rows ih =>
    have hcons : logText eventModel (e :: rows) = lineText (eventLine e) ++ logText eventModel rows := rfl
    have hnl : Utf8.encode ['\n'] = [10] := by decide
    rw [hcons, Utf8.encode_append, ih, lineText, Utf8.encode_append, hnl, List.map_cons, unlines, unlines, List.flatMap_cons]

/-- What the tail of one log streams from its start. -/
def streamed (name : String) (file : Option Bytes) : List (List Char × List (String × Value)) :=
  (readNewEvents [⟨name, file.getD [], 0⟩] Dict.empty none).1.map fun e => (e.data, e.payload)

theorem readNewEvents_holds (h : Holds d rows heartbeat) (name : String) : streamed name d.log =
      (rows.filter fun e => e.kind ≠ heartbeatKind).map fun e => (eventLine e, e.dump) := by
  obtain ⟨tail, hfile, htorn⟩ := h.log
  have hsplit : split isNewlineByte (d.log.getD []) = (rows.map fun e => Utf8.encode (eventLine e)) ++ [Utf8.encode tail] := by
    rw [hfile, Utf8.encode_append, encode_logText]
    refine split_unlines_append (by decide) ?_ ?_
    · intro line hline
      obtain ⟨e, -, rfl⟩ := List.mem_map.mp hline
      exact newline_byte (newline_not_mem e)
    · refine newline_byte fun hm => ?_
      exact absurd (htorn.no_break _ hm) (by decide)
  have hlines : (readSourceLines ⟨name, d.log.getD [], 0⟩ 0).1.map Prod.fst = rows.map fun e => Utf8.encode (eventLine e) := by
    simp only [readSourceLines, readLinesFrom, Nat.zero_min, Nat.sub_zero, Nat.lt_irrefl, false_and, if_false, List.drop_zero,
      hsplit, List.map_map]
    exact lineOffsets_fst 0 _ _
  obtain ⟨hevents, hflag⟩ := tailLines_none name (readSourceLines ⟨name, d.log.getD [], 0⟩ 0).1 ⟨[], Dict.empty⟩
  have hstart : ((Dict.empty : Dict String Nat).get? name).getD 0 = 0 := rfl
  simp only [streamed, readNewEvents, tailSources, hstart, hflag, Bool.false_eq_true, if_false, hevents, hlines, List.map_nil, List.nil_append]
  clear h hfile hsplit hlines hevents hflag
  induction rows with
  | nil => rfl
  | cons e rows ih =>
    rw [List.map_cons, List.filterMap_cons, payloadOf_eventLine, ih]
    by_cases hk : e.kind = heartbeatKind
    · simp [hk]
    · simp [hk]

/-- After any run of clean appends and cuts both readers recover. `read` never raises: it gives the completed events of the
log, and behind them the last heartbeat unless it is older. The tail streams the same events, but for heartbeats. -/
theorem torn_appends_recovered {κ : Type} [DecidableEq κ] (l : Layout κ) (as : List Attempt)
    (h : CleanRun l (fun _ => ⟨none, none⟩) as) (lifecycleId : Option String) (name : String) :
    EventStore.read l (attempts l as) lifecycleId = some (withHeartbeat (logged l (l.dir lifecycleId) (completed as))
      (lifecycleId.bind fun id => lastHeartbeat l (l.lifecycle id) (completed as))) ∧
    streamed name (attempts l as (l.dir lifecycleId)).log =
      ((logged l (l.dir lifecycleId) (completed as)).filter fun e => e.kind ≠ heartbeatKind).map
        (fun e => (eventLine e, e.dump)) ∧
    ((∀ e ∈ completed as, e.kind ≠ heartbeatKind) →
      EventStore.read l (attempts l as) lifecycleId =
        some ((completed as).filter fun e => l.dir e.lifecycleId = l.dir lifecycleId) ∧
      streamed name (attempts l as (l.dir lifecycleId)).log =
        ((completed as).filter fun e => l.dir e.lifecycleId = l.dir lifecycleId).map fun e => (eventLine e, e.dump)) := by
  have hholds := holds_attempts l h (l.dir lifecycleId)
  have hread : EventStore.read l (attempts l as) lifecycleId = some (withHeartbeat (logged l (l.dir lifecycleId) (completed as))
      (lifecycleId.bind fun id => lastHeartbeat l (l.lifecycle id) (completed as))) := by
    rw [EventStore.read, EventStore.readLog, readTolerant_holds hholds, Option.bind_some]
    cases lifecycleId with
    | none => rfl
    | some id =>
      show (readHeartbeatSidecar l (attempts l as) id).map _ = _
      rw [readHeartbeat_holds l (holds_attempts l h (l.lifecycle id))]
      rfl
  have htail := readNewEvents_holds hholds name
  refine ⟨hread, htail, fun hkind => ?_⟩
  have hplain : ∀ e ∈ completed as, e.coalesced = false := by
    intro e he
    rw [Bool.eq_false_iff]
    exact fun hc => hkind e he (coalesced_kind hc)
  have hlogged : logged l (l.dir lifecycleId) (completed as) =
      (completed as).filter fun e => l.dir e.lifecycleId = l.dir lifecycleId :=
    List.filter_congr fun e he => by rw [hplain e he]; rfl
  have hlast : ∀ dir, lastHeartbeat l dir (completed as) = none := by
    intro dir
    rw [lastHeartbeat, List.filter_eq_nil_iff.mpr]
    · rfl
    · intro e he
      simp [hplain e he]
  have hall : ((completed as).filter fun e => l.dir e.lifecycleId = l.dir lifecycleId).filter
      (fun e => e.kind ≠ heartbeatKind) = (completed as).filter fun e => l.dir e.lifecycleId = l.dir lifecycleId := by
    rw [List.filter_eq_self]
    intro e he
    simpa using hkind e (List.mem_of_mem_filter he)
  rw [hread, htail, hlogged, hall]
  cases lifecycleId <;> simp [hlast, withHeartbeat]

def plainEvent : Event :=
  ⟨observerEventSchema, "e1", "2026-08-05T10:00:00+00:00", "note", .declared, .model, [], none, none, none, none, none⟩

theorem torn_appends_recovered_tail :
    EventStore.read ⟨fun _ => (), ()⟩ (attempts ⟨fun _ => (), ()⟩ [⟨plainEvent, none⟩, ⟨plainEvent, some 1⟩]) none =
      some [plainEvent] := by
  have hclean : CleanRun (⟨fun _ => (), ()⟩ : Layout Unit) (fun _ => ⟨none, none⟩) [⟨plainEvent, none⟩, ⟨plainEvent, some 1⟩] := by
    refine ⟨fun _ => ⟨by decide, by rintro b ⟨⟩, by rintro n ⟨⟩⟩, fun _ => ⟨by decide, ?_, ?_⟩, trivial⟩
    · intro b hb
      have hlast : ((attempt ⟨fun _ => (), ()⟩ (fun _ => ⟨none, none⟩) ⟨plainEvent, none⟩ ()).log.getD []).getLast? = some 10 := by
        decide +kernel
      rw [hlast] at hb
      cases hb
      rfl
    · rintro n ⟨⟩
      exact ⟨['{'], (eventLine plainEvent).tail, by decide +kernel, by decide +kernel, by decide⟩
  exact (torn_appends_recovered ⟨fun _ => (), ()⟩ _ hclean none "workspace").1

/-- An event whose text has a character of two bytes. -/
def accentEvent : Event := { plainEvent with data := [("text", text "é")] }

/-- A cut inside a character makes the read raise, and an append behind a torn one is lost though it completed. -/
theorem torn_append_freezes_read :
    EventStore.read ⟨fun _ => (), ()⟩ (attempts ⟨fun _ => (), ()⟩ [⟨accentEvent, some 142⟩]) none = none ∧
    EventStore.read ⟨fun _ => (), ()⟩ (attempts ⟨fun _ => (), ()⟩ [⟨plainEvent, some 1⟩, ⟨plainEvent, none⟩]) none = some [] ∧
    completed [⟨plainEvent, some 1⟩, ⟨plainEvent, none⟩] = [plainEvent] := by
  have hcut : (attempts ⟨fun _ => (), ()⟩ [⟨accentEvent, some 142⟩] ()).log.getD [] =
      Utf8.encode ((eventLine accentEvent).take 141) ++ [0xC3] := by decide +kernel
  have hglued : (attempts ⟨fun _ => (), ()⟩ [⟨plainEvent, some 1⟩, ⟨plainEvent, none⟩] ()).log.getD [] =
      Utf8.encode (unlines '\n' ['{' :: eventLine plainEvent]) := by decide +kernel
  have hcr : '\r' ∉ unlines '\n' ['{' :: eventLine plainEvent] := by decide +kernel
  have hlines : breakLines isLineBreak (unlines '\n' ['{' :: eventLine plainEvent]) = ['{' :: eventLine plainEvent] := by
    decide +kernel
  have hno : loads ('{' :: eventLine plainEvent) = none := by
    obtain ⟨body, hbody⟩ := braces_mem eventModel plainEvent
    rw [eventLine, hbody]
    simp [loads, parseValue, parseFields, parseKey, skipSpace, isSpace, doubleQuote]
  refine ⟨?_, ?_, rfl⟩
  · have hread : readTolerant eventModel (attempts ⟨fun _ => (), ()⟩ [⟨accentEvent, some 142⟩] ()).log = none := by
      rw [readTolerant, readLogText_eq, hcut, readText, Utf8.decode_encode_append]
      rfl
    exact congrArg (fun r => r.bind fun events => some events) hread
  have hread : readTolerant eventModel (attempts ⟨fun _ => (), ()⟩ [⟨plainEvent, some 1⟩, ⟨plainEvent, none⟩] ()).log =
      some [] := by
    rw [readTolerant, readLogText_eq, hglued, readText_encode hcr, Option.map_some, splitlines_of_no_cr hcr, hlines,
      Option.some.injEq]
    refine List.filterMap_eq_nil_iff.mpr fun piece hp => ?_
    rw [List.mem_singleton.mp (List.mem_of_mem_filter hp), modelValidateJson, hno]
    rfl
  exact congrArg (fun r => r.bind fun events => some events) hread

end AgentsRemember.Logs
