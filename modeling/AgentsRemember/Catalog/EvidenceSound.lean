import AgentsRemember.Catalog.SweepSound
import AgentsRemember.Catalog.UpdateSound

/-!
# No terminal evidence is skipped

In every run whose sweeps find whole pages, each row's cursors are past mapped
frames only, each outcome that a read was offered shows on its row or is older
than the one that does, and every sweep ends. A page that is cut, a frame
evicted unread and a frame that does not map each break this.
-/

namespace AgentsRemember.Catalog

open Lib

section
variable {c : EvidenceConfig} {e : TerminalCatalogEntry} {v : SessionEvidence} {w w' : EvidenceWorld} {f : EvidenceFrame}

/-! ## Bridges -/

theorem latestSequence_append (evidence : List EvidenceFrame) (n : Int) (f : EvidenceFrame) :
    Bridge.latestSequence ⟨evidence ++ [f], n⟩ = f.sequence := by
  rw [Bridge.latestSequence, List.getLast?_concat]
  rfl

theorem BridgeOk.latest_nonneg (h : BridgeOk v) : 0 ≤ v.bridge.latestSequence := by
  unfold Bridge.latestSequence
  cases hlast : v.bridge.evidence.getLast? with
  | none => exact le_refl _
  | some f =>
    obtain ⟨evicted, hrecorded, -⟩ := h.evicted
    have hf : f ∈ v.recorded := hrecorded ▸ List.mem_append_right _ (List.mem_of_getLast? hlast)
    exact (h.bounded f hf).1.le

variable {limit : Nat} {bridge : Bridge} {session : String} {outside : Outside} {r : OpenRequest}

theorem BridgeOk.append (h : BridgeOk v) (ha : v.bridge.appendEvidence limit f = some bridge) :
    v.bridge.latestSequence < f.sequence ∧ BridgeOk { v with bridge := bridge, recorded := v.recorded ++ [f] } ∧
      bridge.latestSequence = f.sequence := by
  unfold Bridge.appendEvidence at ha
  split at ha
  · cases ha
  rename_i hnew
  have hlater : v.bridge.latestSequence < f.sequence := not_le.mp hnew
  have hsorted : (v.recorded ++ [f]).Pairwise fun f g => f.sequence < g.sequence := by
    refine List.pairwise_append.mpr ⟨h.sorted, List.pairwise_singleton _ _, fun g hg f' hf' => ?_⟩
    rw [List.mem_singleton.mp hf']
    exact (h.bounded g hg).2.trans_lt hlater
  have hbounded : ∀ g ∈ v.recorded ++ [f], 0 < g.sequence ∧ g.sequence ≤ f.sequence := by
    intro g hg
    rcases List.mem_append.mp hg with hg | hg
    · exact ⟨(h.bounded g hg).1, ((h.bounded g hg).2.trans_lt hlater).le⟩
    · rw [List.mem_singleton.mp hg]
      exact ⟨h.latest_nonneg.trans_lt hlater, le_refl _⟩
  obtain ⟨evicted, hrecorded, hevicted⟩ := h.evicted
  split at ha
  · cases ha
    refine ⟨hlater, ⟨hsorted, ?_, ?_, h.identified⟩, latestSequence_append _ _ f⟩
    · show ∀ g ∈ v.recorded ++ [f], 0 < g.sequence ∧ g.sequence ≤ Bridge.latestSequence ⟨_ ++ [f], _⟩
      rwa [latestSequence_append]
    show ∃ evicted', v.recorded ++ [f] = evicted' ++ (v.bridge.evidence.tail ++ [f]) ∧ ∀ g ∈ evicted', g.sequence ≤ _
    cases hevidence : v.bridge.evidence with
    | nil => exact ⟨evicted, by simp [hrecorded, hevidence], hevicted⟩
    | cons first rest =>
      refine ⟨evicted ++ [first], by simp [hrecorded, hevidence], fun g hg => ?_⟩
      show g.sequence ≤ first.sequence
      rcases List.mem_append.mp hg with hg | hg
      · have hpairs := h.sorted
        rw [hrecorded, hevidence, List.pairwise_append] at hpairs
        exact (hpairs.2.2 g hg first (by simp)).le
      · rw [List.mem_singleton.mp hg]
  · cases ha
    refine ⟨hlater, ⟨hsorted, ?_, ?_, h.identified⟩, latestSequence_append _ _ f⟩
    · show ∀ g ∈ v.recorded ++ [f], 0 < g.sequence ∧ g.sequence ≤ Bridge.latestSequence ⟨_ ++ [f], _⟩
      rwa [latestSequence_append]
    · exact ⟨evicted, by rw [hrecorded, List.append_assoc], hevicted⟩

theorem SessionOk.record (h : SessionOk c e v) (ha : v.bridge.appendEvidence limit f = some bridge) :
    SessionOk c e { v with bridge := bridge, recorded := v.recorded ++ [f] } := by
  obtain ⟨hlater, hbridge, hlatest⟩ := h.toBridgeOk.append ha
  have hunread : ¬f.sequence ≤ cursorOf e := not_le.mpr (h.cursor.trans_lt hlater)
  have hexamined : v.examined = (v.recorded ++ [f]).filter fun f => f.sequence ≤ cursorOf e := by
    rw [List.filter_append, List.filter_cons_of_neg (by simpa using hunread), List.filter_nil, List.append_nil]
    exact h.examined
  exact
    { hbridge with
      cursor := (h.cursor.trans hlater.le).trans_eq hlatest.symm
      examined := hexamined
      offered := h.offered
      shows := h.shows
      nativeCursor := h.nativeCursor
      examinedEntries := h.examinedEntries
      showsEntries := h.showsEntries
      oneSource := h.oneSource }

theorem SessionOk.addEntry {f : NativeEvidenceFrame} (h : SessionOk c e v)
    (hf : f.nativeId ∉ v.entries.map NativeEvidenceFrame.nativeId) :
    SessionOk c e { v with entries := v.entries ++ [f] } := by
  have hnodup : ((v.entries ++ [f]).map NativeEvidenceFrame.nativeId).Nodup := by
    rw [List.map_append, List.map_singleton]
    exact List.nodup_append.mpr ⟨h.identified, List.nodup_singleton _, fun a ha b hb hab =>
      hf (List.mem_singleton.mp hb ▸ hab ▸ ha)⟩
  obtain ⟨left, hleft⟩ := h.examinedEntries
  exact
    { h with
      identified := hnodup
      examinedEntries := ⟨left ++ [f], by rw [hleft, List.append_assoc]⟩ }

/-! ## Runs -/

def RowsOk (c : EvidenceConfig) (sessions : String → SessionEvidence) (s : TerminalCatalog) : Prop :=
  ∀ session e, s.rows.get? session = some e → SessionOk c e (sessions session)

theorem RowsOk.mutate {sessions : String → SessionEvidence} {s : TerminalCatalog} {clock : Clock} {m : Mutation}
    (h : RowsOk c sessions s) : RowsOk c sessions (s.mutate clock session m).2 := by
  intro other e' he'
  rcases get?_mutate_cases he' with hsame | ⟨-, e, hrow, happly⟩
  · exact h other e' hsame
  · exact (h other e hrow).mutate happly

theorem taskBindingRefusal_ne_opened {seatRole : String} {refusal : OpenTerminalStatus}
    (h : taskBindingRefusal outside r seatRole = some refusal) : refusal ≠ .opened := by
  unfold taskBindingRefusal at h
  split at h
  · cases h
    nofun
  split at h
  · split at h
    · cases h
    · cases h
      nofun
  split at h
  · cases h
  · cases h
    nofun

theorem openTerminal_cases {P : TerminalCatalog → Prop} (s : TerminalCatalog) (clock : Clock) (outside : Outside)
    (session : String) (r : OpenRequest) (hP : ∀ s owner, P s → P (s.mutate clock owner .exited).2) (h : P s) :
    let launched := (s.openTerminal clock outside session r).1 = .opened ∧
      ((s.rows.get? session).any fun e => outside (.hasSession e.tmuxName)) = false
    (launched ∧ ∃ s₁ row sets, P s₁ ∧ (s.openTerminal clock outside session r).2 = s₁.write session row sets ∧
      row.terminalEvidenceSequence = none ∧ row.terminalNativeCursor = none) ∨
    (¬launched ∧ P (s.openTerminal clock outside session r).2) := by
  dsimp only
  unfold TerminalCatalog.openTerminal
  dsimp only
  cases hlive : (s.rows.get? session).filter fun e => outside (.hasSession e.tmuxName) with
  | some live =>
    obtain ⟨hrow, hsession⟩ := Option.filter_eq_some_iff.mp hlive
    exact .inr ⟨fun hlaunched => by simp [hrow, hsession] at hlaunched, h⟩
  | none =>
    have hnone : ((s.rows.get? session).any fun e => outside (.hasSession e.tmuxName)) = false := by
      cases hrow : s.rows.get? session with
      | none => rfl
      | some e => simpa [hrow, Option.filter_eq_none_iff] using hlive
    dsimp only
    split
    · rename_i refusal hrefusal
      exact .inr ⟨fun hlaunched => taskBindingRefusal_ne_opened hrefusal hlaunched.1, h⟩
    have hc : P (s.bindingConflictOwner clock outside r session (openedSeatRole (s.rows.get? session) r)).2 :=
      bindingConflictOwner_keeps hP h
    split
    · rename_i hcheck
      rw [hcheck] at hc
      exact .inr ⟨by simp, hc⟩
    · rename_i hcheck
      rw [hcheck] at hc
      exact .inr ⟨by simp, hc⟩
    rename_i s₁ hcheck
    rw [hcheck] at hc
    exact .inl ⟨⟨rfl, hnone⟩, s₁, _, _, hc, rfl, rfl, rfl⟩

theorem WorldOk.update {v : SessionEvidence} {raised : Bool} (h : WorldOk c w)
    (hv : ∀ e, SessionOk c e (w.sessions session) → SessionOk c e v) :
    WorldOk c ⟨w.catalog, Function.update w.sessions session v, raised⟩ := by
  intro other e he
  show SessionOk c e (Function.update w.sessions session v other)
  by_cases hs : other = session
  · subst hs
    rw [Function.update_self]
    exact hv e (h other e he)
  · rw [Function.update_of_ne hs]
    exact h other e he

theorem WorldOk.openTerminal {entries : List NativeEvidenceFrame} (h : WorldOk c w)
    (hstep : w.openTerminal c session r entries outside = some w') : WorldOk c w' := by
  unfold EvidenceWorld.openTerminal at hstep
  split at hstep
  · rename_i hnodup
    obtain rfl := Option.some.inj hstep
    have hkept : ∀ s owner, RowsOk c w.sessions s → RowsOk c w.sessions (s.mutate c.clock owner .exited).2 :=
      fun _ _ hs => hs.mutate
    rcases openTerminal_cases w.catalog c.clock outside session r hkept h with
      ⟨hlaunched, s₁, row, sets, hs₁, hwrite, hsequence, hcursor⟩ | ⟨hlaunched, hs⟩
    · intro other e he
      rw [hwrite] at he
      rw [if_pos hlaunched]
      show SessionOk c e (Function.update w.sessions session { entries := entries } other)
      by_cases hsame : session = other
      · subst hsame
        rw [TerminalCatalog.write, Dict.get?_set_self] at he
        cases he
        rw [Function.update_self]
        exact .fresh hnodup hsequence hcursor
      · rw [Function.update_of_ne (Ne.symm hsame)]
        exact hs₁ other e ((Dict.get?_set_ne _ _ hsame).symm.trans he)
    · intro other e he
      rw [if_neg hlaunched]
      exact hs other e he
  · cases hstep

theorem step_keeps {a : EvidenceAction} (h : WorldOk c w ∧ w.raised = false) (hok : SweepsMeet c (EvidenceWhole c) w a)
    (hstep : w.step c a = some w') : WorldOk c w' ∧ w'.raised = false := by
  have hsweep : ∀ call choose, SweepEnds c (SweepDone c) (Job.whole (Call.job c.toConfig call)) w →
      (Job.whole (Call.job c.toConfig call)).Issues (evidenceExec c) (EvidenceWhole c) choose 0 w →
      WorldOk c (w.runSweep c call choose) ∧ (w.runSweep c call choose).raised = false := by
    intro call choose hends hissues
    obtain ⟨hresult, hworld⟩ := Script.Ends.run _ hends hissues
    exact ⟨hworld, congrArg Option.isNone hresult⟩
  cases a with
  | record session f =>
    obtain ⟨bridge, hbridge, rfl⟩ := Option.map_eq_some_iff.mp hstep
    exact ⟨h.1.update fun e he => he.record hbridge, h.2⟩
  | addEntry session f =>
    simp only [EvidenceWorld.step, EvidenceWorld.addEntry] at hstep
    split at hstep
    · cases hstep
    rename_i hfresh
    cases hstep
    exact ⟨h.1.update fun e he => he.addEntry hfresh, h.2⟩
  | reach session reachable =>
    cases hstep
    exact ⟨h.1.update fun e he => { he with }, h.2⟩
  | openTerminal session r entries outside =>
    refine ⟨h.1.openTerminal hstep, ?_⟩
    simp only [EvidenceWorld.step, EvidenceWorld.openTerminal] at hstep
    split at hstep
    · cases hstep
      exact h.2
    · cases hstep
  | mutate session m =>
    cases hstep
    exact ⟨RowsOk.mutate (s := w.catalog) h.1, h.2⟩
  | sweep observed hysteresis checkedAt choose =>
    cases hstep
    exact hsweep _ choose (ends_sweep h.1) hok
  | startingSweep observed hysteresis checkedAt choose =>
    cases hstep
    exact hsweep _ choose (ends_startingSweep h.1) hok

end

/-- The cursors are past examined frames only, each outcome that a read was offered shows or is older than the one that
does, and the last sweep ended. -/
structure EvidenceLifted (c : EvidenceConfig) (w : EvidenceWorld) : Prop where
  passed : ∀ session e, w.catalog.rows.get? session = some e →
    ∀ f ∈ (w.sessions session).recorded, f.sequence ≤ cursorOf e → f ∈ (w.sessions session).examined
  passedEntries : ∀ session e, w.catalog.rows.get? session = some e → ∀ id, e.terminalNativeCursor = some id →
    ∃ l₁ f l₂, (w.sessions session).entries = l₁ ++ f :: l₂ ∧ f.nativeId = id ∧
      ∀ g ∈ l₁ ++ [f], g ∈ (w.sessions session).examinedEntries
  shown : ∀ session e, w.catalog.rows.get? session = some e →
    ∀ f ∈ (w.sessions session).offered, outcomes (projectionsOf c e) f ≠ [] →
      ∃ g ∈ (w.sessions session).examined, f.sequence ≤ g.sequence ∧ ∃ t ∈ outcomes (projectionsOf c e) g, Shows e t
  shownEntries : ∀ session e, w.catalog.rows.get? session = some e →
    ∀ f ∈ (w.sessions session).examinedEntries, outcomes (nativeProjectionsOf c e) f ≠ [] →
      ∃ l₁ g l₂, (w.sessions session).examinedEntries = l₁ ++ g :: l₂ ∧ f ∈ l₁ ++ [g] ∧
        ∃ t ∈ outcomes (nativeProjectionsOf c e) g, Shows e t
  ended : w.raised = false

variable {c : EvidenceConfig}

theorem WorldOk.lifted {w : EvidenceWorld} (h : WorldOk c w) (hended : w.raised = false) : EvidenceLifted c w where
  passed session e he f hf hpassed := by
    rw [(h session e he).examined]
    exact List.mem_filter.mpr ⟨hf, by simpa using hpassed⟩
  passedEntries session e he id hid := by
    obtain ⟨left, hleft⟩ := (h session e he).examinedEntries
    rw [(h session e he).nativeCursor] at hid
    obtain ⟨f, hlast, rfl⟩ := Option.map_eq_some_iff.mp hid
    obtain ⟨l₁, hl₁⟩ := List.getLast?_eq_some_iff.mp hlast
    exact ⟨l₁, f, left, by rw [hleft, hl₁]; simp, rfl, fun g hg => hl₁ ▸ hg⟩
  shown session e he f hf ho := by
    have hok := h session e he
    obtain ⟨t, l₁, g, l₂, hnew, hsplit, ht, hmem⟩ := newest_after (hok.offered f hf) ho
    refine ⟨g, hsplit ▸ by simp, ?_, t, ht, hok.shows t hnew⟩
    have hsorted : (l₁ ++ g :: l₂).Pairwise fun f g => f.sequence < g.sequence := by
      rw [← hsplit, hok.examined]
      exact hok.sorted.filter _
    rcases List.mem_append.mp hmem with hl₁ | hg
    · exact ((List.pairwise_append.mp hsorted).2.2 f hl₁ g (by simp)).le
    · rw [List.mem_singleton.mp hg]
  shownEntries session e he f hf ho := by
    obtain ⟨t, l₁, g, l₂, hnew, hsplit, ht, hmem⟩ := newest_after hf ho
    exact ⟨l₁, g, l₂, hsplit, hmem, t, ht, (h session e he).showsEntries t hnew⟩
  ended := hended

/-- In every world of every run whose sweeps' commands meet the condition, the evidence is lifted. -/
def EvidenceKept (c : EvidenceConfig) (ok : EvidenceWorld → Command → Prop) : Prop :=
  ∀ w, Reachable (evidenceSystem c) (SweepsMeet c ok) w → EvidenceLifted c w

/-- **No terminal evidence is skipped.** -/
theorem evidence_kept (c : EvidenceConfig) : EvidenceKept c (EvidenceWhole c) := by
  intro w hw
  have hinit : WorldOk c (evidenceSystem c).init := by
    intro session e he
    cases he
  have hkept : WorldOk c w ∧ w.raised = false :=
    Reachable.invariant (I := fun w => WorldOk c w ∧ w.raised = false) ⟨hinit, rfl⟩
      (fun _ _ _ h hok hstep => step_keeps h hok hstep) hw
  exact hkept.1.lifted hkept.2

/-! ## A frame that does not map -/

def codexOutcomes (f : EvidenceFrame) : Option (List MappedTurnOutcome) :=
  if f.kind ≠ "completed" then some []
  else do
    let params ← JsonText.asObject f.raw
    let turn ← (JsonText.field params "turn").bind JsonText.asObject
    let turnId ← ((JsonText.field turn "id").bind JsonText.asText).filter (· ≠ "")
    let status ← (JsonText.field turn "status").bind JsonText.asText
    let outcome ←
      match status with
      | "completed" => some TerminalOutcome.completed
      | "interrupted" => some .interrupted
      | "failed" => some .failed
      | _ => none
    pure [⟨outcome, some turnId⟩]

def codexConfig : EvidenceConfig where
  clock := pythonClock
  projectorFor harness := if harness = "codex" then some ⟨codexOutcomes, fun _ => some []⟩ else none
  wireBytes _ := 100
  nativeWireBytes _ := 100

def codexRequest : OpenRequest where
  kind := .harness
  harness := some "codex"
  cwd := "/work"
  spawnRole := none
  resolvedLaunch := none
  controlState := .starting
  controlEndpoint := some "/run/s1.sock"
  label := none
  taskDocumentRef := none
  replacementForTaskDocumentRef := none
  launch := {}
  attachedAt := "2026-01-01T00:00:00+00:00"
  tmuxName := "ar-s1"

def idleSnapshot : AdapterSnapshot where
  control := .ready
  activity := .idle
  acceptance := .unknown
  vendorSessionId := none
  pendingInteraction := none
  pendingInteractions := []
  lastEventSequence := 1
  raw := []

def answering : Outside
  | .hasSession _ => false
  | .snapshot _ => .ok idleSnapshot
  | q => calm q

def malformedSwept : EvidenceWorld :=
  (runFrom (evidenceSystem codexConfig) (evidenceSystem codexConfig).init
    [.openTerminal "s1" codexRequest [] answering,
      .record "s1" ⟨1, "completed", "2026-01-01T00:00:01+00:00", .obj [], none, none⟩,
      .sweep false {} ⟨0, some 0⟩ fun _ => answering]).get rfl

theorem sweepsMeet_of_forall (w : EvidenceWorld) (a : EvidenceAction) : SweepsMeet c (fun _ _ => True) w a := by
  cases a with
  | sweep observed hysteresis checkedAt choose => exact Script.issues_of_forall (fun _ _ => trivial) _
  | startingSweep observed hysteresis checkedAt choose => exact Script.issues_of_forall (fun _ _ => trivial) _
  | _ => trivial

theorem malformedSwept_reachable :
    Reachable (evidenceSystem codexConfig) (SweepsMeet codexConfig fun _ _ => True) malformedSwept :=
  steps_of_runFrom (fun a _ w => sweepsMeet_of_forall w a) (Option.some_get _).symm

/-- A sweep that reads a frame which does not map ends in an exception. -/
theorem sweep_raised : ¬ ∀ c, EvidenceKept c fun _ _ => True :=
  fun h => nomatch (h codexConfig malformedSwept malformedSwept_reachable).ended

end AgentsRemember.Catalog
