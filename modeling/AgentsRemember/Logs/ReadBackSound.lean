import AgentsRemember.Logs.Events

/-!
# What the readers of a JSONL log give back

A log holds one line for each record, but its readers break it with
`str.splitlines`, which also breaks at U+0085, U+2028 and U+2029. The strict
stores read back what was written exactly when no record's text holds one of
them (`readStrict_iff`); the tolerant reader leaves out each record that does
(`readTolerant_logText`).
-/

namespace AgentsRemember.Logs

open Lib Lib.JsonText Lib.Lines

section
variable {ρ : Type} (m : RecordModel ρ)

def logText (records : List ρ) : List Char := records.flatMap fun r => lineText (modelDumpJson m r)

theorem logText_append (rs ss : List ρ) : logText m (rs ++ ss) = logText m rs ++ logText m ss := List.flatMap_append

variable {r : ρ} {c : Char} {cs : List Char} {file : Option Bytes} {records : List ρ}

theorem mem_modelDumpJson_break (hc : isLineBreak c = true) :
    c ∈ modelDumpJson m r ↔ InTexts c (texts (.obj (m.dump r))) ∧ isWideBreak c = true := by
  rw [modelDumpJson, mem_dumps_break rfl hc]
  exact and_congr_right fun _ => and_iff_right rfl

theorem unbroken_iff (r : ρ) : Unbroken m r ↔ ∀ c ∈ modelDumpJson m r, isLineBreak c = false := by
  constructor
  · intro h c hc
    cases hb : isLineBreak c with
    | false => rfl
    | true =>
      obtain ⟨⟨t, ht, hct⟩, hw⟩ := (mem_modelDumpJson_break m hb).mp hc
      rw [h t ht c hct] at hw
      cases hw
  intro h t ht c hct
  cases hw : isWideBreak c with
  | false => rfl
  | true =>
    have hb := break_of_wide hw
    rw [h c ((mem_modelDumpJson_break m hb).mpr ⟨⟨t, ht, hct⟩, hw⟩)] at hb
    cases hb

theorem cr_not_mem_logText (records : List ρ) : '\r' ∉ logText m records := by
  intro h
  obtain ⟨r, -, hr⟩ := List.mem_flatMap.mp h
  rcases List.mem_append.mp hr with hr | hr
  · exact absurd ((mem_modelDumpJson_break m (by decide)).mp hr).2 (by decide)
  · exact absurd (List.mem_singleton.mp hr) (by decide)

theorem readText_encode (h : '\r' ∉ cs) : readText (Utf8.encode cs) = some cs := by
  rw [readText, Utf8.decode_encode, Option.map_some, universal_of_no_cr h]

theorem readLogText_eq (file : Option Bytes) : readLogText file = readText (file.getD []) := by
  cases file <;> rfl

theorem splitlines_logText (records : List ρ) :
    splitlines (logText m records) = records.flatMap fun r => split isLineBreak (modelDumpJson m r) := by
  have hlog : logText m records = unlines '\n' (records.map (modelDumpJson m)) := by
    rw [unlines, List.flatMap_map]
    rfl
  rw [splitlines_of_no_cr (cr_not_mem_logText m records), hlog, breakLines_unlines isLineBreak (by decide), List.flatMap_map]

theorem modelValidateJson_dump (r : ρ) : modelValidateJson m (modelDumpJson m r) = some r := by
  rw [modelValidateJson, modelDumpJson, loads_dumps, Option.bind_some, m.validate_dump]

theorem braces_mem (r : ρ) : ∃ body, modelDumpJson m r = '{' :: body ++ ['}'] := by
  obtain ⟨body, h, -⟩ := dumps_obj compact (m.dump r)
  exact ⟨body, h⟩

theorem not_blank_of_mem (hc : c ∈ cs) (hs : isPythonSpace c = false) : isBlank cs = false := by
  rw [isBlank, List.all_eq_false]
  exact ⟨c, hc, by simp [hs]⟩

theorem split_unbroken (h : Unbroken m r) :
    (split isLineBreak (modelDumpJson m r)).filter (fun l => !isBlank l) = [modelDumpJson m r] := by
  obtain ⟨body, hbody⟩ := braces_mem m r
  have hblank : isBlank (modelDumpJson m r) = false := not_blank_of_mem (c := '{') (by simp [hbody]) (by decide)
  rw [split_of_all ((unbroken_iff m r).mp h), List.filter_cons, hblank]
  rfl

theorem broken_split (h : ¬ Unbroken m r) :
    ∃ p c q, modelDumpJson m r = p ++ c :: q ∧ isLineBreak c = true ∧ (∀ x ∈ p, isLineBreak x = false) := by
  rw [unbroken_iff] at h
  push Not at h
  obtain ⟨x, hx, hb⟩ := h
  exact exists_first ⟨x, hx, by simpa using hb⟩

/-! ## The strict readers -/

def pieces (r : ρ) : List (List Char) := (split isLineBreak (modelDumpJson m r)).filter fun l => !isBlank l

theorem pieces_pos (hc : c ∈ cs) (hb : isLineBreak c = false) (hs : isPythonSpace c = false) :
    1 ≤ ((split isLineBreak cs).filter fun l => !isBlank l).length := by
  obtain ⟨l, hl, hcl⟩ := mem_split hc hb
  exact List.length_pos_of_mem (List.mem_filter.mpr ⟨hl, by rw [not_blank_of_mem hcl hs]; rfl⟩)

theorem length_pieces_unbroken (h : Unbroken m r) : (pieces m r).length = 1 := by
  rw [pieces, split_unbroken m h, List.length_singleton]

theorem length_pieces_broken (h : ¬ Unbroken m r) : 2 ≤ (pieces m r).length := by
  obtain ⟨p, c, q, hpc, hc, -⟩ := broken_split m h
  obtain ⟨body, hbody⟩ := braces_mem m r
  have hopen : '{' ∈ p := by
    cases p with
    | nil =>
      rw [hpc, List.nil_append] at hbody
      rw [(List.cons.inj hbody).1] at hc
      cases hc
    | cons x p =>
      rw [hpc] at hbody
      rw [(List.cons.inj hbody).1]
      simp
  have hclose : '}' ∈ q := by
    rcases List.eq_nil_or_concat q with rfl | ⟨q, y, rfl⟩
    · rw [hpc] at hbody
      have hlast : [c] = ['}'] := List.append_inj_right' hbody rfl
      rw [(List.cons.inj hlast).1] at hc
      cases hc
    rw [hpc, List.concat_eq_append] at hbody
    have happ : (p ++ c :: q) ++ [y] = ('{' :: body) ++ ['}'] := by
      rw [← hbody]
      simp
    rw [List.concat_eq_append, (List.cons.inj (List.append_inj_right' happ rfl)).1]
    simp
  rw [pieces, hpc, split_append isLineBreak hc, List.filter_append, List.length_append]
  have h1 := pieces_pos hopen (by decide) (by decide)
  have h2 := pieces_pos hclose (by decide) (by decide)
  omega

theorem length_le_pieces (records : List ρ) : records.length ≤ (records.flatMap (pieces m)).length ∧
    ((∃ r ∈ records, ¬ Unbroken m r) → records.length < (records.flatMap (pieces m)).length) := by
  classical
  induction records with
  | nil => exact ⟨Nat.le_refl _, fun ⟨r, hr, _⟩ => by cases hr⟩
  | cons r records ih =>
    rw [List.flatMap_cons, List.length_append, List.length_cons]
    by_cases hr : Unbroken m r
    · have hlen := length_pieces_unbroken m hr
      refine ⟨by omega, ?_⟩
      rintro ⟨s, hs, hb⟩
      have hs' : s ∈ records := by
        rcases List.mem_cons.mp hs with rfl | hs
        · exact absurd hr hb
        · exact hs
      have := ih.2 ⟨s, hs', hb⟩
      omega
    · have hlen := length_pieces_broken m hr
      exact ⟨by omega, fun _ => by omega⟩

theorem readStrict_logText (h : file.getD [] = Utf8.encode (logText m records)) :
    readStrict m file = (records.flatMap (pieces m)).mapM (modelValidateJson m) := by
  rw [readStrict, readLogText_eq, h, readText_encode (cr_not_mem_logText m records), Option.bind_some, splitlines_logText,
    List.filter_flatMap]
  rfl

theorem readStrict_iff (h : file.getD [] = Utf8.encode (logText m records)) :
    readStrict m file = some records ↔ ∀ r ∈ records, Unbroken m r := by
  rw [readStrict_logText m h]
  constructor
  · intro hread r hr
    by_contra hb
    have hlen := (mapM_eq_some.mp hread).length_eq
    have hmore := (length_le_pieces m records).2 ⟨r, hr, hb⟩
    omega
  intro hall
  have hpieces : records.flatMap (pieces m) = records.map (modelDumpJson m) := by
    rw [← List.flatMap_singleton' (records.map _), List.flatMap_map]
    exact List.flatMap_congr fun r hr => split_unbroken m (hall r hr)
  rw [hpieces]
  clear h hall hpieces
  induction records with
  | nil => rfl
  | cons r records ih =>
    rw [List.map_cons, List.mapM_cons, modelValidateJson_dump, ih]
    rfl

variable {κ : Type} [DecidableEq κ]

theorem logText_map (records : List ρ) : (records.map (modelDumpJson m)).flatMap lineText = logText m records := by
  rw [logText, List.flatMap_map]

theorem apply_logText {files : Files κ} {path : κ} (w : Write κ ρ)
    (h : (files path).getD [] = Utf8.encode (logText m records)) :
    (w.apply m files path).getD [] = Utf8.encode (logText m (w.record path records)) := by
  cases w with
  | append path' r =>
    rw [Write.apply, Write.record]
    by_cases hp : path' = path
    · subst hp
      rw [Function.update_self, if_pos rfl, appendLine, Option.getD_some, h, logText_append, Utf8.encode_append]
      simp [logText]
    · rw [Function.update_of_ne (Ne.symm hp), if_neg hp, h]
  | appendLines path' rs =>
    rw [Write.apply, Write.record]
    by_cases hp : path' = path
    · subst hp
      rw [Function.update_self, if_pos rfl, appendLines]
      split
      · rename_i hnil
        rw [List.map_eq_nil_iff.mp hnil, List.append_nil, h]
      · rw [Option.getD_some, h, logText_append, Utf8.encode_append, logText_map]
    · rw [Function.update_of_ne (Ne.symm hp), if_neg hp, h]
  | rewrite path' rs =>
    rw [Write.apply, Write.record]
    by_cases hp : path' = path
    · subst hp
      rw [Function.update_self, if_pos rfl, rewriteLines, Option.getD_some, logText_map]
    · rw [Function.update_of_ne (Ne.symm hp), if_neg hp, h]

theorem run_logText (writes : List (Write κ ρ)) (path : κ) :
    (run m writes path).getD [] = Utf8.encode (logText m (written path writes)) := by
  have hfold : ∀ (writes : List (Write κ ρ)) (files : Files κ) (records : List ρ),
      (files path).getD [] = Utf8.encode (logText m records) →
      (writes.foldl (Write.apply m) files path).getD [] =
        Utf8.encode (logText m (writes.foldl (Write.record path) records)) := by
    intro writes
    induction writes with
    | nil => exact fun _ _ h => h
    | cons w writes ih => exact fun files records h => ih _ _ (apply_logText m w h)
  exact hfold writes _ [] rfl

end

/-! ## The tolerant reader -/

theorem validate_after_break {piece : List Char} (tail : List Char) (h : Legal .inside (piece ++ tail)) :
    modelValidateJson eventModel piece = none := by
  rw [modelValidateJson]
  cases hl : loads piece with
  | none => rfl
  | some v =>
    rw [Option.bind_some]
    match v, hl with
    | .scalar s, _ => rfl
    | .arr items, _ => rfl
    | .obj [], _ => rfl
    | .obj ((k, w) :: fields), hl =>
      obtain ⟨c, hc, hmark⟩ := key_after_break h hl
      have hkey : Event.keys.contains k = false := by
        have hno : ∀ k' ∈ Event.keys, ∀ c ∈ k'.toList.head?, isMark c = false := by decide
        rw [Bool.eq_false_iff]
        intro hk
        have hfalse := hno k (List.contains_iff_mem.mp hk) c hc
        rw [hfalse] at hmark
        cases hmark
      have hall : (((k, w) :: fields).all fun e => Event.keys.contains e.1) = false := by
        rw [List.all_cons, hkey, Bool.false_and]
      show (if (((k, w) :: fields).all fun e => Event.keys.contains e.1) = true then _ else none) = none
      rw [hall]
      rfl

theorem validate_split_after_break : ∀ (n : Nat) {cs : List Char}, cs.length ≤ n → Legal .inside cs →
    ∀ piece ∈ split isLineBreak cs, modelValidateJson eventModel piece = none
  | n, cs, hn, h, piece, hp => by
    by_cases hb : ∃ x ∈ cs, isLineBreak x = true
    · obtain ⟨p, c, q, rfl, hc, hpure⟩ := exists_first hb
      rw [split_append isLineBreak hc, split_of_all hpure, List.singleton_append] at hp
      rcases List.mem_cons.mp hp with rfl | hp
      · exact validate_after_break _ h
      cases n with
      | zero => simp at hn
      | succ n =>
        refine validate_split_after_break n ?_ (Legal.after_break (s := ⟨.inside, 0⟩) hc h) piece hp
        rw [List.length_append, List.length_cons] at hn
        omega
    have hpure : ∀ x ∈ cs, isLineBreak x = false := fun x hx => by
      cases hx' : isLineBreak x with
      | false => rfl
      | true => exact absurd ⟨x, hx, hx'⟩ hb
    rw [split_of_all hpure, List.mem_singleton] at hp
    rw [hp]
    exact validate_after_break [] (by rwa [List.append_nil])

theorem validate_broken {e : Event} (h : ¬ Unbroken eventModel e) :
    ∀ piece ∈ split isLineBreak (modelDumpJson eventModel e), modelValidateJson eventModel piece = none := by
  obtain ⟨p, c, q, hpc, hc, hpure⟩ := broken_split eventModel h
  have hlegal : Legal .outside (p ++ c :: q) := by
    rw [← hpc]
    exact legal_dumps rfl _
  rw [hpc, split_append isLineBreak hc, split_of_all hpure, List.singleton_append, List.forall_mem_cons]
  constructor
  · rw [modelValidateJson, loads_of_prefix compact (eventModel.dump e) hpc (by simp)]
    rfl
  · exact validate_split_after_break q.length (Nat.le_refl _) (Legal.after_break (s := ⟨.outside, 0⟩) hc hlegal)

instance {ρ : Type} (m : RecordModel ρ) (r : ρ) : Decidable (Unbroken m r) :=
  inferInstanceAs (Decidable (∀ t ∈ texts (.obj (m.dump r)), ∀ c ∈ t.toList, isWideBreak c = false))

theorem readTolerant_logText {file : Option Bytes} {events : List Event}
    (h : file.getD [] = Utf8.encode (logText eventModel events)) :
    readTolerant eventModel file = some (events.filter fun e => decide (Unbroken eventModel e)) := by
  rw [readTolerant, readLogText_eq, h, readText_encode (cr_not_mem_logText eventModel events), Option.map_some,
    splitlines_logText, Option.some.injEq]
  clear h
  induction events with
  | nil => rfl
  | cons e events ih =>
    rw [List.flatMap_cons, List.filter_append, List.filterMap_append, ih]
    by_cases hb : Unbroken eventModel e
    · rw [split_unbroken eventModel hb, List.filter_cons_of_pos (by simpa using hb)]
      simp [modelValidateJson_dump]
    have hnone := validate_broken hb
    have hempty : ((split isLineBreak (modelDumpJson eventModel e)).filter fun l => !isBlank l).filterMap
        (modelValidateJson eventModel) = [] :=
      List.filterMap_eq_nil_iff.mpr fun piece hp => hnone piece (List.mem_of_mem_filter hp)
    rw [hempty, List.filter_cons_of_neg (by simpa using hb), List.nil_append]

section
variable {κ : Type} [DecidableEq κ] (l : Layout κ)

def appendAll (events : List Event) : κ → Directory := events.foldl (EventStore.append l) fun _ => ⟨none, none⟩

/-- The events that belong to the log of a directory. -/
def logged (dir : κ) (events : List Event) : List Event := events.filter fun e => !e.coalesced && l.dir e.lifecycleId = dir

theorem append_logText {root : κ → Directory} {dir : κ} {events : List Event} (e : Event)
    (h : ((root dir).log).getD [] = Utf8.encode (logText eventModel events)) :
    ((EventStore.append l root e dir).log).getD [] = Utf8.encode (logText eventModel (events ++ logged l dir [e])) := by
  rw [EventStore.append, EventStore.write, logged]
  by_cases hc : e.coalesced = true
  · rw [if_pos hc]
    by_cases hd : l.lifecycle (e.lifecycleId.getD "") = dir
    · subst hd
      simp [hc, h]
    · simp [hc, h, Function.update_of_ne (Ne.symm hd)]
  rw [if_neg hc]
  by_cases hd : l.dir e.lifecycleId = dir
  · subst hd
    simp only [Function.update_self, Option.getD_some, h, logText_append, Utf8.encode_append]
    simp [hc, logText, eventLine]
  · simp [hc, h, hd, Function.update_of_ne (Ne.symm hd)]

theorem appendAll_logText (events : List Event) (dir : κ) :
    ((appendAll l events dir).log).getD [] = Utf8.encode (logText eventModel (logged l dir events)) := by
  have hfold : ∀ (events : List Event) (root : κ → Directory) (before : List Event),
      ((root dir).log).getD [] = Utf8.encode (logText eventModel before) →
      ((events.foldl (EventStore.append l) root dir).log).getD [] =
        Utf8.encode (logText eventModel (before ++ logged l dir events)) := by
    intro events
    induction events with
    | nil => exact fun root before h => by simpa [logged] using h
    | cons e events ih =>
      intro root before h
      have hstep := ih _ _ (append_logText l e h)
      rw [List.foldl_cons, hstep, List.append_assoc]
      simp only [logged, ← List.filter_append, List.singleton_append]
  exact hfold events _ [] rfl

end

/-- The stores read back what was written to a log exactly when no text of a record written to it breaks its line. -/
theorem logs_read_back {κ ρ : Type} [DecidableEq κ] (m : RecordModel ρ) (writes : List (Write κ ρ)) (path : κ)
    (l : Layout κ) (events : List Event) (lifecycleId : Option String) :
    (GateStore.read m (run m writes) path = some (written path writes) ↔ ∀ r ∈ written path writes, Unbroken m r) ∧
    (OperatorInboxStore.read m (run m writes) path = some (written path writes) ↔ ∀ r ∈ written path writes, Unbroken m r) ∧
    (EventStore.readLog l (appendAll l events) lifecycleId = some (logged l (l.dir lifecycleId) events) ↔
      ∀ e ∈ logged l (l.dir lifecycleId) events, Unbroken eventModel e) := by
  have hstrict := readStrict_iff m (run_logText m writes path)
  refine ⟨hstrict, hstrict, ?_⟩
  rw [EventStore.readLog, readTolerant_logText (appendAll_logText l events (l.dir lifecycleId)), Option.some.injEq,
    List.filter_eq_self]
  simp only [decide_eq_true_eq]

/-- A note with a line separator in it. -/
def separatorEvent : Event :=
  ⟨observerEventSchema, "e1", "2026-08-05T10:00:00+00:00", "note", .declared, .model,
    [("text", text (String.ofList ['a', Char.ofNat 8232, 'b']))], none, none, none, none, none⟩

theorem logs_drop_separator :
    EventStore.readLog ⟨fun _ => (), ()⟩ (appendAll ⟨fun _ => (), ()⟩ [separatorEvent]) none = some [] ∧
    logged ⟨fun _ => (), ()⟩ () [separatorEvent] = [separatorEvent] ∧
    GateStore.read eventModel (run eventModel [.append () separatorEvent]) () ≠ some [separatorEvent] ∧
    written () [.append () separatorEvent] = [separatorEvent] := by
  have hbroken : ¬ Unbroken eventModel separatorEvent := by decide
  have hlogged : logged ⟨fun _ => (), ()⟩ () [separatorEvent] = [separatorEvent] := rfl
  refine ⟨?_, hlogged, ?_, rfl⟩
  · have hread := readTolerant_logText (appendAll_logText ⟨fun _ => (), ()⟩ [separatorEvent] ())
    rw [hlogged, List.filter_cons_of_neg (by simpa using hbroken)] at hread
    exact hread
  intro hread
  have hfile := run_logText eventModel [.append () separatorEvent] ()
  exact hbroken ((readStrict_iff eventModel hfile).mp hread separatorEvent (List.mem_singleton_self _))

end AgentsRemember.Logs
