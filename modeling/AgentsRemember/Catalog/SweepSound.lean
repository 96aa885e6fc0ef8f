import AgentsRemember.Catalog.LiftSound

/-!
# What a sweep leaves

A sweep whose reads find whole pages visits every row and ends without an
exception, and every row stays tied to its evidence. Along one row's script the
other rows and their evidence stay as they were.
-/

namespace AgentsRemember.Catalog

open Lib

/-- What a command of a sweep needs: a read finds its page whole, and the stamp of a first failure parses. -/
def EvidenceWhole (c : EvidenceConfig) (w : EvidenceWorld) : Command → Prop
  | .ask (.terminalEvidence session entry) => ∀ harness, entry.harness = some harness → harness ≠ "pi" →
      (w.sessions session).reachable = true → PageWhole c entry (w.sessions session).bridge
  | .mutate session (.livenessProbe (some _) checkedAt _) => ∀ e, w.catalog.rows.get? session = some e →
      (c.clock.parse ((e.liveness.firstFailedAt.filter (· ≠ "")).getD (c.clock.format checkedAt))).isSome = true
  | _ => True

def WorldOk (c : EvidenceConfig) (w : EvidenceWorld) : Prop :=
  ∀ session e, w.catalog.rows.get? session = some e → SessionOk c e (w.sessions session)

structure At (w₀ : EvidenceWorld) (session : String) (e : TerminalCatalogEntry) (v : SessionEvidence) (w : EvidenceWorld) :
    Prop where
  others : ∀ other, other ≠ session → w.catalog.rows.get? other = w₀.catalog.rows.get? other ∧
    w.sessions other = w₀.sessions other
  row : w.catalog.rows.get? session = some e
  evidence : w.sessions session = v

variable {c : EvidenceConfig} {w₀ w : EvidenceWorld} {session : String} {e e' copy : TerminalCatalogEntry} {v : SessionEvidence}
  {outside : Outside} {α β : Type} {Q : Option β → EvidenceWorld → Prop} {u : Update} {m : Mutation} {clock : Clock}

/-! ## Rows tied to their evidence -/

theorem SessionOk.of_columns (h : SessionOk c e v) (hlaunch : Column.launch.read e' = Column.launch.read e)
    (hsequence : Column.evidenceSequence.read e' = Column.evidenceSequence.read e)
    (hcursor : Column.nativeCursor.read e' = Column.nativeCursor.read e)
    (hterminal : Column.terminal.read e' = Column.terminal.read e) : SessionOk c e' v := by
  obtain ⟨-, hharness, -⟩ := by simpa only [Column.read, Column.Value, Prod.mk.injEq] using hlaunch
  exact h.congr hharness hsequence hcursor hterminal

theorem SessionOk.mutate (h : SessionOk c e v) (hm : m.apply clock e = some e') : SessionOk c e' v :=
  h.of_columns (m.frame _ hm (by cases m <;> rfl)) (m.frame _ hm (by cases m <;> rfl)) (m.frame _ hm (by cases m <;> rfl))
    (m.frame _ hm (by cases m <;> rfl))

def Update.incidental : Update → Bool
  | .terminalCursors _ _ => false
  | .turnEvidence _ => false
  | _ => true

theorem SessionOk.update (h : SessionOk c e v) (hu : u.incidental = true) : SessionOk c (u.apply e) v := by
  have hsets : ∀ col ∈ [Column.launch, .evidenceSequence, .nativeCursor, .terminal], u.sets e col = false := by
    intro col hcol
    simp only [List.mem_cons, List.not_mem_nil, or_false] at hcol
    cases u with
    | terminalCursors evidenceSequence nativeCursor => cases hu
    | turnEvidence stamp => cases hu
    | _ => rcases hcol with rfl | rfl | rfl | rfl <;> simp [Update.sets, isRaw, readFailureKeys]
  exact h.of_columns (u.frame e _ (hsets _ (by simp))) (u.frame e _ (hsets _ (by simp))) (u.frame e _ (hsets _ (by simp)))
    (u.frame e _ (hsets _ (by simp)))

theorem status_update (u : Update) (e : TerminalCatalogEntry) : (u.apply e).status = e.status :=
  u.frame e .status (by cases u <;> rfl)

theorem WorldOk.of_at (h : WorldOk c w₀) (hat : At w₀ session e v w) (hok : SessionOk c e v) : WorldOk c w := by
  intro other e' he'
  by_cases hs : other = session
  · subst hs
    rw [hat.row] at he'
    cases he'
    exact hat.evidence ▸ hok
  · obtain ⟨hrow, hevidence⟩ := hat.others other hs
    exact hevidence ▸ h other e' (hrow.symm.trans he')

/-! ## One command -/

abbrev SweepEnds (c : EvidenceConfig) (Q : Option α → EvidenceWorld → Prop) (t : CatalogScript α) (w : EvidenceWorld) : Prop :=
  t.Ends (evidenceExec c) (EvidenceWhole c) Q w

theorem At.upsert (h : At w₀ session e v w) : At w₀ session (u.apply copy) v
    (evidenceExec c outside w (.upsert session copy u)).2 where
  others other hs := ⟨(Dict.get?_set_ne _ _ (Ne.symm hs)).trans (h.others other hs).1, (h.others other hs).2⟩
  row := Dict.get?_set_self _ _ _
  evidence := h.evidence

variable {f : TerminalCatalogEntry → CatalogScript β}

theorem ends_upsertRow (h : At w₀ session e v w)
    (hf : ∀ w', At w₀ session (u.apply copy) v w' → SweepEnds c Q (f (u.apply copy)) w') :
    SweepEnds c Q (upsertRow session copy u >>= f) w :=
  fun _ _ => hf _ h.upsert

theorem ends_upsertChanged (h : At w₀ session e v w)
    (hf : ∀ w', At w₀ session (u.apply e) v w' → SweepEnds c Q (f (u.apply e)) w') :
    SweepEnds c Q (upsertChanged session e u >>= f) w := by
  unfold upsertChanged
  split
  · rename_i hsame
    have hstay := hf w (hsame.symm ▸ h)
    rw [hsame] at hstay
    exact hstay
  · exact ends_upsertRow h hf

variable {f : Option TerminalCatalogEntry → CatalogScript β} {checkedAt : Stamp}
  {hysteresis : TerminalCatalogLivenessConfig} {o : Observation} {entry : TerminalCatalogEntry} {diagnostic : String}
  {probe : LivenessProbe} {rows : List (String × TerminalCatalogEntry)}

theorem ends_getRow (h : At w₀ session e v w) (hf : SweepEnds c Q (f (some e)) w) :
    SweepEnds c Q (getRow session >>= f) w := by
  intro _ outside
  show SweepEnds c Q (f (w.catalog.rows.get? session)) w
  rw [h.row]
  exact hf

theorem ends_recordCopy (h : At w₀ session e v w)
    (hf : ∀ w', At w₀ session (u.apply e) v w' → SweepEnds c Q (f (some (u.apply e))) w') :
    SweepEnds c Q (recordCopy session u >>= f) w := by
  intro _ outside
  rw [show evidenceExec c outside w (.get session) = (some e, w) from Prod.ext h.row rfl]
  show SweepEnds c Q ((upsertChanged session e u >>= fun e => pure (some e)) >>= f) w
  unfold upsertChanged
  split
  · rename_i hsame
    have hstay := hf w (hsame.symm ▸ h)
    rw [hsame] at hstay
    exact hstay
  · exact fun _ _ => hf _ h.upsert

theorem ends_mutateRow (h : At w₀ session e v w) (hm : m.apply c.clock e = some e')
    (hf : ∀ w', At w₀ session e' v w' → SweepEnds c Q (f (some e')) w') :
    SweepEnds c Q (mutateRow session m >>= f) w := by
  intro _ outside
  have hexec : evidenceExec c outside w (.mutate session m) =
      (some (some e'), { w with catalog := w.catalog.write session e' m.sets }) := by
    simp only [evidenceExec, exec, TerminalCatalog.mutate, h.row, hm]
  rw [hexec]
  refine hf _ ⟨fun other hs => ?_, Dict.get?_set_self _ _ _, h.evidence⟩
  exact ⟨(Dict.get?_set_ne _ _ (Ne.symm hs)).trans (h.others other hs).1, (h.others other hs).2⟩

theorem ends_ask {q : Question} {f : q.Reply → CatalogScript β} (hq : ∀ session entry, q ≠ .terminalEvidence session entry)
    (hf : ∀ reply, SweepEnds c Q (f reply) w) : SweepEnds c Q (ask q >>= f) w := by
  intro _ outside
  cases q <;> first | exact absurd rfl (hq _ _) | exact hf _

theorem ends_askEvidence {f : EvidenceReply → CatalogScript β} (h : At w₀ session e v w) (hok : SessionOk c e v)
    (hfailed : SweepEnds c Q (f .failed) w)
    (hread : ∀ r w' v', At w₀ session e v' w' → (∀ e', Takes r e e' → SessionOk c e' v') → SweepEnds c Q (f (.read r)) w') :
    SweepEnds c Q (ask (.terminalEvidence session e) >>= f) w := by
  intro hwhole outside
  rw [EvidenceWhole, h.evidence] at hwhole
  have hreply := readEntryTerminalEvidence_ok hok hwhole
  show SweepEnds c Q (f (readEntryTerminalEvidence c e (w.sessions session)).1)
    { w with sessions := Function.update w.sessions session (readEntryTerminalEvidence c e (w.sessions session)).2 }
  rw [h.evidence]
  generalize readEntryTerminalEvidence c e v = answer at hreply ⊢
  obtain ⟨reply, v'⟩ := answer
  have hat : At w₀ session e v' { w with sessions := Function.update w.sessions session v' } := by
    refine ⟨fun other hs => ⟨(h.others other hs).1, ?_⟩, h.row, Function.update_self _ _ _⟩
    exact (Function.update_of_ne hs _ _).trans (h.others other hs).2
  cases reply with
  | read r => exact hread r _ v' hat (hreply.read r rfl)
  | failed =>
    have hsame : v' = w.sessions session := (hreply.failed rfl).trans h.evidence.symm
    dsimp only
    rw [hsame, Function.update_eq_self]
    exact hfailed
  | raised => exact absurd rfl hreply.mapped

/-! ## One row -/

theorem withLivenessFailure_isSome {evidence : TerminalLivenessEvidence}
    (h : (clock.parse ((e.liveness.firstFailedAt.filter (· ≠ "")).getD (clock.format checkedAt))).isSome = true) :
    (e.withLivenessFailure clock evidence checkedAt hysteresis).isSome = true := by
  unfold TerminalCatalogEntry.withLivenessFailure
  split
  · rfl
  · obtain ⟨stamp, hstamp⟩ := Option.isSome_iff_exists.mp h
    simp only [ageMicros, hstamp, Option.map_some, Option.isSome_map, apply_ite Option.isSome, Option.isSome_some, ite_self]

theorem status_livenessProbe {evidence : Option TerminalLivenessEvidence} (hs : e.status ≠ .terminated)
    (h : (Mutation.livenessProbe evidence checkedAt hysteresis).apply clock e = some e') : e'.status ≠ .terminated := by
  cases evidence with
  | none =>
    cases h
    rw [TerminalCatalogEntry.withLivenessSuccess, if_neg hs]
    dsimp only
    split <;> simp
  | some evidence =>
    simp only [Mutation.apply, TerminalCatalogEntry.withLivenessFailure] at h
    split at h
    · cases h
      exact hs
    obtain ⟨exits, -, rfl⟩ := Option.map_eq_some_iff.mp h
    dsimp only
    split
    · simp
    · exact hs

structure Observed (c : EvidenceConfig) (w₀ : EvidenceWorld) (session : String) (o : Observation) (w : EvidenceWorld) : Prop where
  row : ∃ e v, At w₀ session e v w ∧ SessionOk c e v ∧ e.status ≠ .terminated
  syncs : ∀ p ∈ o.syncs, p.session = session

def ObservedEnd (c : EvidenceConfig) (w₀ : EvidenceWorld) (session : String) (o : Option Observation) (w : EvidenceWorld) : Prop :=
  ∃ o', o = some o' ∧ Observed c w₀ session o' w

theorem snapshotTurnState_terminal (s : AdapterSnapshot) (previous : Option SeatTurnState) (t : TurnTerminalEvidence) :
    (snapshotTurnState s previous (some t)).isSome = true := by
  unfold snapshotTurnState seatTurnStateFor terminalTurnState
  rw [Option.elim_some]
  cases t.outcome <;> cases s.control <;> rfl

theorem ends_observed (h : At w₀ session e v w) (hok : SessionOk c e v) (hs : e.status ≠ .terminated)
    (hsyncs : ∀ p ∈ o.syncs, p.session = session) : SweepEnds c (ObservedEnd c w₀ session) (pure o) w :=
  ⟨o, rfl, ⟨e, v, h, hok, hs⟩, hsyncs⟩

theorem ends_observed_alone {alive : Bool} (h : At w₀ session e v w) (hok : SessionOk c e v)
    (hs : e.status ≠ .terminated) : SweepEnds c (ObservedEnd c w₀ session) (pure ⟨entry, alive, []⟩) w :=
  ends_observed h hok hs fun _ hp => nomatch hp

theorem ends_recordAdapterTurnState {state : Option SeatTurnState} {terminal : Option TerminalEvidenceProjection}
    (h : At w₀ session e v w) (hs : e.status ≠ .terminated) (hnone : state = none → SessionOk c e v)
    (hsome : ∀ st, state = some st →
      SessionOk c (e.withTurnEvidence ⟨st, c.clock.format checkedAt, terminalColumns entry terminal⟩) v) :
    SweepEnds c (ObservedEnd c w₀ session) (recordAdapterTurnState c.toConfig session entry state checkedAt terminal) w := by
  cases state with
  | none => exact ends_observed_alone h (hnone rfl) hs
  | some st =>
    refine ends_recordCopy h fun w' h' => ends_observed_alone h' (hsome st rfl) ?_
    rwa [status_update]

theorem ends_recordStale (h : At w₀ session e v w) (hok : SessionOk c e v) (hs : e.status ≠ .terminated) :
    SweepEnds c (ObservedEnd c w₀ session) (recordAdapterTurnState c.toConfig session e (some .stale) checkedAt none) w :=
  ends_recordAdapterTurnState h hs nofun fun _ _ => hok.congr rfl rfl rfl rfl

theorem ends_observeControlReadFailure {error : String} (h : At w₀ session e v w) (hok : SessionOk c e v)
    (hs : e.status ≠ .terminated) :
    SweepEnds c (ObservedEnd c w₀ session) (observeControlReadFailure c.toConfig session e error diagnostic checkedAt) w := by
  unfold observeControlReadFailure
  refine ends_upsertRow h fun w' h' => ?_
  have hok' : SessionOk c (Update.apply (.readFailure error diagnostic) e) v := hok.update rfl
  have hs' : (Update.apply (.readFailure error diagnostic) e).status ≠ .terminated := by
    rwa [status_update]
  split
  · exact ends_recordStale h' hok' hs'
  · exact ends_observed_alone h' hok' hs'

theorem ends_bind_observed {t : CatalogScript Observation} {f : Observation → CatalogScript β}
    (ht : SweepEnds c (ObservedEnd c w₀ session) t w) (hf : ∀ o w', Observed c w₀ session o w' → SweepEnds c Q (f o) w') :
    SweepEnds c Q (t >>= f) w := by
  refine Script.Ends.bind _ (Script.Ends.mono (fun o s ho => ?_) _ ht)
  obtain ⟨o', rfl, ho'⟩ := ho
  exact hf o' s ho'

def projectedCopy (e : TerminalCatalogEntry) (snapshot : AdapterSnapshot) (diagnostic : String) : TerminalCatalogEntry :=
  (Update.paneDiagnostic diagnostic).apply ((Update.controlSnapshot snapshot).apply e)

theorem ends_recordRead {r : TerminalEvidenceRead} {snapshot : AdapterSnapshot}
    (h : At w₀ session (projectedCopy e snapshot diagnostic) v w) (hok : ∀ e', Takes r e e' → SessionOk c e' v)
    (hs : e.status ≠ .terminated) {f : Observation → CatalogScript β}
    (hf : ∀ o w', Observed c w₀ session o w' → SweepEnds c Q (f o) w') :
    SweepEnds c Q (recordTerminalCursors session r.evidenceSequence r.nativeCursor >>= fun _ =>
      recordAdapterTurnState c.toConfig session (projectedCopy e snapshot diagnostic)
        (snapshotTurnState snapshot e.turnState (r.projection.map TerminalEvidenceProjection.evidence)) checkedAt r.projection
        >>= f) w := by
  refine ends_recordCopy h fun w' h' => ?_
  refine ends_bind_observed (ends_recordAdapterTurnState h' hs (fun hnone => ?_) fun st _ => ?_) hf
  · cases hr : r.projection with
    | some t =>
      have := snapshotTurnState_terminal snapshot e.turnState t.evidence
      rw [hr, Option.map_some] at hnone
      rw [hnone] at this
      cases this
    | none => exact hok _ ⟨rfl, rfl, rfl, fun t ht => (nomatch hr.symm.trans ht), fun _ => rfl⟩
  refine hok _ ⟨rfl, rfl, rfl, fun t ht => ?_, fun hnone => ?_⟩
  · rw [ht]
    exact ⟨rfl, rfl, rfl⟩
  · rw [hnone]
    rfl

theorem ends_observeAlive (hdeferred : probe.deferred = true) (h : At w₀ session e v w) (hok : SessionOk c e v)
    (hs : e.status ≠ .terminated) :
    SweepEnds c (ObservedEnd c w₀ session) (observeAlive c.toConfig probe session e checkedAt) w := by
  unfold observeAlive
  split
  · exact ends_observed_alone h hok hs
  refine ends_ask (q := .pane e.tmuxName) (by simp) fun diagnostic => ?_
  split
  · split
    · refine ends_upsertRow h fun w' h' => ?_
      exact ends_recordStale h' (hok.update rfl) (by rwa [status_update])
    · refine ends_upsertRow h fun w' h' => ends_upsertRow h' fun w'' h'' => ?_
      exact ends_recordStale h'' ((hok.update rfl).update rfl) (by rwa [status_update, status_update])
  refine ends_ask (q := .snapshot session) (by simp) fun reply => ?_
  cases reply with
  | error error => exact ends_observeControlReadFailure h hok hs
  | ok snapshot =>
    have hnow : ¬(probe.observed = true ∧ ¬probe.deferred = true) := by simp [hdeferred]
    have hend : ∀ o w', Observed c w₀ session o w' → SweepEnds c (ObservedEnd c w₀ session)
        (pure { o with syncs := if probe.observed = true ∧ probe.deferred = true then
          [⟨session, projectedCopy e snapshot diagnostic, snapshot⟩] else [] }) w' := by
      intro o w' ho
      obtain ⟨e', v', hat, hok', hs'⟩ := ho.row
      refine ends_observed hat hok' hs' fun p hp => ?_
      dsimp only at hp
      split at hp
      · rw [List.mem_singleton.mp hp]
      · cases hp
    refine ends_askEvidence h hok ?_ fun r w' v' h' hread => ?_
    · refine ends_upsertChanged h fun w' h' => ends_upsertRow h' fun w'' h'' => ?_
      dsimp only
      simp only [if_neg hnow]
      refine ends_bind_observed (ends_recordAdapterTurnState h'' ?_ (fun _ => ?_) fun st _ => ?_) hend
      · rwa [status_update, status_update]
      · exact hok.congr rfl rfl rfl rfl
      · exact hok.congr rfl rfl rfl rfl
    refine ends_upsertChanged h' fun w' h' => ends_upsertRow h' fun w'' h'' => ?_
    dsimp only
    simp only [if_neg hnow]
    exact ends_recordRead h'' hread hs hend

theorem ends_observeTerminalLiveness (hdeferred : probe.deferred = true) (h : At w₀ session e v w)
    (hok : SessionOk c e v) (hs : e.status ≠ .terminated) :
    SweepEnds c (ObservedEnd c w₀ session) (observeTerminalLiveness c.toConfig probe session entry checkedAt) w := by
  unfold observeTerminalLiveness
  refine ends_ask (q := .probe session entry.tmuxName) (by simp) fun evidence => ?_
  cases evidence with
  | none =>
    have hm : Mutation.apply c.clock (.livenessProbe none checkedAt probe.hysteresis) e = some e.withLivenessSuccess := rfl
    exact ends_mutateRow h hm fun w' h' => ends_observeAlive hdeferred h' (hok.mutate hm) (status_livenessProbe hs hm)
  | some evidence =>
    intro hstamp outside
    obtain ⟨e', hm⟩ := Option.isSome_iff_exists.mp (withLivenessFailure_isSome (e := e) (hstamp e h.row))
    have hm' : Mutation.apply c.clock (.livenessProbe (some evidence) checkedAt probe.hysteresis) e = some e' := hm
    have hend : SweepEnds c (ObservedEnd c w₀ session)
        (mutateRow session (.livenessProbe (some evidence) checkedAt probe.hysteresis) >>= fun updated =>
          pure (⟨updated.getD entry, false, []⟩ : Observation)) w :=
      ends_mutateRow h hm' fun w' h' => ends_observed_alone h' (hok.mutate hm') (status_livenessProbe hs hm')
    exact hend hstamp outside

/-! ## A whole sweep -/

def Listed (L : List String) (w : EvidenceWorld) : Prop :=
  ∀ session ∈ L, ∃ e, w.catalog.rows.get? session = some e ∧ e.status ≠ .terminated

structure SweepOk (c : EvidenceConfig) (L : List String) (w : EvidenceWorld) : Prop where
  world : WorldOk c w
  listed : Listed L w

variable {L : List String}

theorem SweepOk.observed (h : SweepOk c L w₀) (ho : Observed c w₀ session o w) : SweepOk c L w := by
  obtain ⟨e, v, hat, hok, hs⟩ := ho.row
  refine ⟨h.world.of_at hat hok, fun other hother => ?_⟩
  by_cases hsame : other = session
  · subst hsame
    exact ⟨e, hat.row, hs⟩
  · obtain ⟨e', he', hs'⟩ := h.listed other hother
    exact ⟨e', (hat.others other hsame).1.trans he', hs'⟩

theorem ends_observeRows (hdeferred : probe.deferred = true) (rows : List (String × TerminalCatalogEntry)) :
    ∀ {w : EvidenceWorld}, SweepOk c L w → (∀ r ∈ rows, r.1 ∈ L) →
      SweepEnds c (fun syncs w' => ∃ syncs', syncs = some syncs' ∧ SweepOk c L w' ∧ ∀ p ∈ syncs', p.session ∈ L)
        (observeRows c.toConfig probe checkedAt rows) w := by
  induction rows with
  | nil => exact fun h _ => ⟨[], rfl, h, fun _ hp => nomatch hp⟩
  | cons head rest ih =>
    obtain ⟨session, entry⟩ := head
    intro w h hL
    unfold observeRows
    have hrest : ∀ r ∈ rest, r.1 ∈ L := fun r hr => hL r (List.mem_cons_of_mem _ hr)
    split
    · exact ih h hrest
    have hsession : session ∈ L := hL (session, entry) (by simp)
    obtain ⟨e, he, hs⟩ := h.listed session hsession
    have hat : At w session e (w.sessions session) w := ⟨fun _ _ => ⟨rfl, rfl⟩, he, rfl⟩
    refine ends_bind_observed (ends_observeTerminalLiveness hdeferred hat (h.world session e he) hs) fun o w' ho => ?_
    refine Script.Ends.bind _ (Script.Ends.mono (fun syncs s hsyncs => ?_) _ (ih (h.observed ho) hrest))
    obtain ⟨syncs', rfl, hok, hmem⟩ := hsyncs
    refine ⟨_, rfl, hok, fun p hp => ?_⟩
    rcases List.mem_append.mp hp with hp | hp
    · exact (ho.syncs p hp).symm ▸ hsession
    · exact hmem p hp

theorem ends_runDeferredSyncs (syncs : List PendingInteractionSync) : ∀ {w : EvidenceWorld}, SweepOk c L w →
    (∀ p ∈ syncs, p.session ∈ L) →
      SweepEnds c (fun r w' => r = some () ∧ SweepOk c L w') (runDeferredSyncs syncs) w := by
  induction syncs with
  | nil => exact fun h _ => ⟨rfl, h⟩
  | cons p rest ih =>
    intro w h hL
    have hrest : ∀ p ∈ rest, p.session ∈ L := fun p hp => hL p (List.mem_cons_of_mem _ hp)
    obtain ⟨e, he, hs⟩ := h.listed p.session (hL p (by simp))
    have hat : At w p.session e (w.sessions p.session) w := ⟨fun _ _ => ⟨rfl, rfl⟩, he, rfl⟩
    unfold runDeferredSyncs
    refine ends_getRow hat ?_
    refine Script.Ends.bind _ (ends_ask (q := .synchronize p.session) (by simp) fun reply => ?_)
    cases reply with
    | none => exact ih h hrest
    | some message =>
      refine ends_upsertRow hat fun w' h' => ih ?_ hrest
      have ho : Observed c w p.session ⟨e, true, []⟩ w' :=
        ⟨⟨_, _, h', (h.world p.session e he).update rfl, by rwa [status_update]⟩, fun _ hp => nomatch hp⟩
      exact h.observed ho

theorem SweepOk.compact (h : SweepOk c L w) (now : Int) : SweepOk c L (evidenceExec c outside w (.compact now)).2 := by
  refine ⟨fun session e he => h.world session e (get?_compact he), fun session hsession => ?_⟩
  obtain ⟨e, he, hs⟩ := h.listed session hsession
  refine ⟨e, ?_, hs⟩
  show (w.catalog.compact c.clock now).rows.get? session = some e
  rw [TerminalCatalog.compact, Dict.get?_filterKeys, he]
  simp [TerminalCatalog.reclaimed, hs]

theorem listed_of_list (h : WorldOk c w) (hrows : ∀ r ∈ rows, r ∈ rowsListed w.catalog.rows false) :
    SweepOk c (rows.map Prod.fst) w := by
  refine ⟨h, fun session hsession => ?_⟩
  obtain ⟨⟨_, e⟩, hr, rfl⟩ := List.mem_map.mp hsession
  have hmem := List.mem_filter.mp (hrows _ hr)
  exact ⟨e, Dict.get?_eq_some.mpr hmem.1, by simpa using hmem.2⟩

def SweepDone (c : EvidenceConfig) (r : Option Unit) (w : EvidenceWorld) : Prop := r = some () ∧ WorldOk c w

theorem ends_leftSyncs {syncs : List PendingInteractionSync} (h : SweepOk c L w) (hL : ∀ p ∈ syncs, p.session ∈ L) :
    SweepEnds c (SweepDone c) (List.forM [runDeferredSyncs syncs] id) w := by
  show SweepEnds c (SweepDone c) (runDeferredSyncs syncs >>= fun _ => pure ()) w
  refine Script.Ends.bind _ (Script.Ends.mono (fun r s hr => ?_) _ (ends_runDeferredSyncs syncs h hL))
  obtain ⟨rfl, hok⟩ := hr
  exact ⟨rfl, hok.world⟩

theorem ends_batch {f : List PendingInteractionSync → CatalogScript (List (CatalogScript Unit))}
    (hdeferred : probe.deferred = true) (h : WorldOk c w) (hrows : ∀ r ∈ rows, r ∈ rowsListed w.catalog.rows false)
    (hf : ∀ L syncs w', SweepOk c L w' → (∀ p ∈ syncs, p.session ∈ L) →
      SweepEnds c (fun left w' => left.elim (SweepDone c none w') fun left => SweepEnds c (SweepDone c) (left.forM id) w')
        (f syncs) w') :
    SweepEnds c (fun left w' => left.elim (SweepDone c none w') fun left => SweepEnds c (SweepDone c) (left.forM id) w')
      (observeRows c.toConfig probe checkedAt rows >>= f) w := by
  have hstart := listed_of_list h hrows
  refine Script.Ends.bind _ (Script.Ends.mono (fun syncs s hsyncs => ?_) _
    (ends_observeRows hdeferred rows hstart fun r hr => List.mem_map_of_mem hr))
  obtain ⟨syncs', rfl, hok, hL⟩ := hsyncs
  exact hf _ syncs' s hok hL

variable {observed : Bool}

theorem ends_sweep (h : WorldOk c w) :
    SweepEnds c (SweepDone c) (Job.whole (Call.job c.toConfig (.sweep observed hysteresis checkedAt))) w := by
  show SweepEnds c (SweepDone c)
    (Script.bind (sweepBody c.toConfig ⟨hysteresis, observed, true⟩ checkedAt) fun left => left.forM id) w
  refine Script.Ends.bind _ fun _ outside => ?_
  refine ends_batch rfl h (fun _ hr => hr) fun L syncs w' hok hL _ outside => ?_
  exact ends_leftSyncs (hok.compact checkedAt.utc) hL

theorem ends_startingSweep (h : WorldOk c w) :
    SweepEnds c (SweepDone c) (Job.whole (Call.job c.toConfig (.startingSweep observed hysteresis checkedAt))) w := by
  refine Script.Ends.bind _ fun _ outside => ?_
  dsimp only [Script.bind]
  split
  · exact ⟨rfl, h⟩
  refine Script.Ends.bind _ ?_
  refine ends_batch rfl h (fun r hr => ?_) fun L syncs w' hok hL => ends_leftSyncs hok hL
  exact (List.mem_filter.mp (List.mem_of_mem_take hr)).1

end AgentsRemember.Catalog
