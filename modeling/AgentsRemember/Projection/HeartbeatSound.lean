import AgentsRemember.Projection.LossSound

/-!
# What a heartbeat heals

A full refresh returns what every reader returns now, whatever was retained. A
heartbeat returns the same exactly when the snapshots that it leaves alone are
what their readers return now.
-/

namespace AgentsRemember.Projection

def outputs : List Slot :=
  [.lifecycleLogs, .enclosures, .providers, .driftSnapshots, .setupSummaries, .setupProgress, .toolReports, .agentPickups,
    .expectationRows, .taskDocuments, .series, .engineProcessFacts, .engineStartProgress, .gates, .attentionDismissals]

section
variable {C V G : Type} [DecidableEq G] (r : Readers C V G) (f : Files C) (st : Retained V G)

/-- `ProjectionInputs`, without the repository surfaces. -/
def Tick.inputs (t : Tick C V G) : List V × G := (outputs.map t.retained.slot, t.retained.engineGroups)

def Readers.contractsNow : V := r.contracts (f.root .tasks)

def Readers.enclosuresNow : V := r.enclosures (f.root .tasks) f.elsewhere (r.contractsNow f)

def Readers.logsNow (enclosures : V) : V := r.lifecycleLogs (r.pruneLogs (f.root .lifecycles) enclosures)

def Readers.activeNow (enclosures : V) : G := r.activeGroups enclosures (r.logsNow f enclosures) f.elsewhere

def Readers.admittedNow (enclosures : V) : G := r.admittedGroups enclosures (r.logsNow f enclosures) f.elsewhere

/-- What each reader returns now. -/
def Readers.now : Slot → V
  | .contracts => r.contractsNow f
  | .enclosures => r.enclosuresNow f
  | .taskDocuments => r.taskDocuments (f.root .tasks) (r.enclosuresNow f)
  | .series => r.series (f.root .tasks)
  | .lifecycleLogs => r.logsNow f (r.enclosuresNow f)
  | .setupSummaries => r.setupSummaries (f.root .providers)
  | .providers => r.providers (f.root .providers) f.elsewhere (r.admittedNow f (r.enclosuresNow f))
  | .setupProgress => r.setupProgress (f.root .providers) f.elsewhere (r.admittedNow f (r.enclosuresNow f))
  | .engineProcessFacts => r.engineFacts f.elsewhere (r.activeNow f (r.enclosuresNow f)) (r.contractsNow f)
  | .driftSnapshots => r.driftSnapshots (r.pruneDrift (f.root .drift) (r.contractsNow f))
  | .gates => r.gates (r.pruneLogs (f.root .lifecycles) (r.enclosuresNow f)) (f.root .workspace)
  | .agentPickups => r.agentPickups (f.root .workspace)
  | .expectationRows => r.expectationRows (f.root .workspace)
  | .attentionDismissals => r.attentionDismissals (f.root .workspace)
  | .engineStartProgress => r.startProgress (f.root .startProgress)
  | .toolReports => r.toolReports (f.root .toolReports)

def Readers.renewed (enclosures : V) : V :=
  if r.activeNow f enclosures ≠ st.engineGroups then r.engineFacts f.elsewhere (r.activeNow f enclosures) (st.slot .contracts)
  else r.landing f.elsewhere (st.slot .engineProcessFacts) (st.slot .contracts)

/-- The snapshots that a heartbeat leaves alone are what their readers return now. -/
structure Readers.Current : Prop where
  progress : ∀ s ∈ [Slot.engineStartProgress, .toolReports], st.slot s = r.now f s
  tasks : st.primed = true → ∀ s ∈ [Slot.enclosures, .taskDocuments, .series, .driftSnapshots], st.slot s = r.now f s
  engines : st.primed = true → r.renewed f st (r.enclosuresNow f) = r.now f .engineProcessFacts

attribute [local simp] Retained.put Readers.refreshed Readers.value Files.set Readers.now Readers.contractsNow Readers.enclosuresNow Readers.logsNow Readers.admittedNow Readers.activeNow

theorem full_reads {p : Pass} (hr : p.refresh = fullRefresh) (ht : p.tasksChanged = true) (s : Slot) : p.reads s = true ∧ p.owes s = true := by
  cases s <;> simp [Pass.reads, Pass.owes, Pass.workspace, hr, ht, fullRefresh, ProjectionRefresh.affects]

theorem read_full : (∀ s, (r.read f st fullRefresh).retained.slot s = r.now f s) ∧
    (r.read f st fullRefresh).retained.engineGroups = r.activeNow f (r.enclosuresNow f) := by
  have hreads : ∀ b₁ b₂ s, (Pass.mk fullRefresh true b₁ b₂).reads s = true := fun b₁ b₂ s => (full_reads rfl rfl s).1
  have howes : ∀ b₁ b₂ s, (Pass.mk fullRefresh true b₁ b₂).owes s = true := fun b₁ b₂ s => (full_reads rfl rfl s).2
  have hstart : startPass st fullRefresh = ⟨fullRefresh, true, false, false⟩ := rfl
  simp only [Readers.read, program, List.foldl_cons, List.foldl_nil, Readers.exec, hstart, hreads, if_true]
  constructor
  · intro s
    cases s <;> simp [howes]
  · simp

theorem quiet_reads (b₁ b₂ : Bool) (s : Slot) : (Pass.mk heartbeatRefresh false b₁ b₂).reads s = s.onHeartbeat := by
  cases s <;> simp [Pass.reads, Pass.owes, Pass.workspace, heartbeatRefresh, ProjectionRefresh.affects, ProjectionRefresh.isHeartbeat,
    Slot.onHeartbeat]

theorem quiet_owes_engines (b₁ b₂ : Bool) : (Pass.mk heartbeatRefresh false b₁ b₂).owes .engineProcessFacts = b₂ := Bool.false_or _

def Readers.kept : Slot → V
  | .lifecycleLogs => r.logsNow f (st.slot .enclosures)
  | .setupSummaries => r.setupSummaries (f.root .providers)
  | .providers => r.providers (f.root .providers) f.elsewhere (r.admittedNow f (st.slot .enclosures))
  | .setupProgress => r.setupProgress (f.root .providers) f.elsewhere (r.admittedNow f (st.slot .enclosures))
  | .engineProcessFacts => r.renewed f st (st.slot .enclosures)
  | .gates => r.gates (r.pruneLogs (f.root .lifecycles) (st.slot .enclosures)) (f.root .workspace)
  | .agentPickups => r.agentPickups (f.root .workspace)
  | .expectationRows => r.expectationRows (f.root .workspace)
  | .attentionDismissals => r.attentionDismissals (f.root .workspace)
  | s => st.slot s

theorem read_heartbeat (hprimed : st.primed = true) : (∀ s, (r.read f st heartbeatRefresh).retained.slot s = r.kept f st s) ∧
    (r.read f st heartbeatRefresh).retained.engineGroups = r.activeNow f (st.slot .enclosures) := by
  have hstart : startPass st heartbeatRefresh = ⟨heartbeatRefresh, false, false, false⟩ := by
    rw [startPass, hprimed]
    rfl
  simp only [Readers.read, program, List.foldl_cons, List.foldl_nil, Readers.exec, hstart, quiet_reads, Slot.onHeartbeat, if_true,
    Bool.false_eq_true, if_false]
  constructor
  · intro s
    cases s <;> simp [Readers.kept, Readers.renewed, quiet_owes_engines]
    split <;> rename_i h <;> simp [h]
  · simp

theorem first_reads (b₁ b₂ : Bool) (s : Slot) : (Pass.mk heartbeatRefresh true b₁ b₂).reads s =
    decide (s ≠ .engineStartProgress ∧ s ≠ .toolReports) := by
  cases s <;> simp [Pass.reads, Pass.owes, Pass.workspace, heartbeatRefresh, ProjectionRefresh.affects, ProjectionRefresh.isHeartbeat,
    Slot.onHeartbeat]

theorem first_owes_engines (b₁ b₂ : Bool) : (Pass.mk heartbeatRefresh true b₁ b₂).owes .engineProcessFacts = true := rfl

theorem read_first (hprimed : st.primed = false) :
    (∀ s, (r.read f st heartbeatRefresh).retained.slot s =
      if s = .engineStartProgress ∨ s = .toolReports then st.slot s else r.now f s) ∧
    (r.read f st heartbeatRefresh).retained.engineGroups = r.activeNow f (r.enclosuresNow f) := by
  have hstart : startPass st heartbeatRefresh = ⟨heartbeatRefresh, true, false, false⟩ := by
    rw [startPass, hprimed]
    rfl
  simp only [Readers.read, program, List.foldl_cons, List.foldl_nil, Readers.exec, hstart, first_reads, ne_eq, reduceCtorEq,
    not_false_eq_true, not_true_eq_false, and_self, and_true, and_false, decide_true, decide_false, if_true, Bool.false_eq_true, if_false]
  constructor
  · intro s
    cases s <;> simp [first_owes_engines]
  · simp

omit [DecidableEq G] in
theorem inputs_eq_iff {t u : Tick C V G} (hgroups : (∀ s ∈ outputs, t.retained.slot s = u.retained.slot s) →
    t.retained.engineGroups = u.retained.engineGroups) : t.inputs = u.inputs ↔ ∀ s ∈ outputs, t.retained.slot s = u.retained.slot s := by
  unfold Tick.inputs
  rw [Prod.mk.injEq, List.map_inj_left]
  exact ⟨fun h => h.1, fun h => ⟨h, hgroups h⟩⟩

theorem mem_outputs {s : Slot} : s ∈ outputs ↔ s ≠ .contracts := by
  cases s <;> simp [outputs]

/-- **A heartbeat gives what a full refresh at the same moment gives exactly when what it leaves alone is current.** -/
theorem heartbeat_heals_iff : (r.read f st heartbeatRefresh).inputs = (r.read f st fullRefresh).inputs ↔ r.Current f st := by
  obtain ⟨hfull, hfullGroups⟩ := read_full r f st
  cases hprimed : st.primed with
  | false =>
    obtain ⟨hslots, hgroups⟩ := read_first r f st hprimed
    rw [inputs_eq_iff fun _ => by rw [hgroups, hfullGroups]]
    simp only [hslots, hfull]
    constructor
    · intro h
      refine ⟨fun s hs => ?_, fun hp => ?_, fun hp => ?_⟩
      · rcases List.mem_cons.mp hs with rfl | hs
        · simpa using h .engineStartProgress (by decide)
        · rw [List.mem_singleton.mp hs]
          simpa using h .toolReports (by decide)
      · rw [hprimed] at hp
        cases hp
      · rw [hprimed] at hp
        cases hp
    intro h s hs
    by_cases hp : s = .engineStartProgress ∨ s = .toolReports
    · rw [if_pos hp]
      exact h.progress s (by simpa using hp)
    · rw [if_neg hp]
  | true =>
    obtain ⟨hslots, hgroups⟩ := read_heartbeat r f st hprimed
    have hsame : (∀ s ∈ outputs, (r.read f st heartbeatRefresh).retained.slot s = (r.read f st fullRefresh).retained.slot s) →
        st.slot .enclosures = r.enclosuresNow f := by
      intro h
      have henc := h .enclosures (by decide)
      rw [hslots, hfull] at henc
      exact henc
    rw [inputs_eq_iff fun h => by rw [hgroups, hfullGroups, hsame h]]
    constructor
    · intro h
      have henc := hsame h
      simp only [hslots, hfull] at h
      refine ⟨fun s hs => ?_, fun _ s hs => ?_, fun _ => ?_⟩
      · rcases List.mem_cons.mp hs with rfl | hs
        · exact h .engineStartProgress (by decide)
        · rw [List.mem_singleton.mp hs]
          exact h .toolReports (by decide)
      · simp only [List.mem_cons, List.not_mem_nil, or_false] at hs
        rcases hs with rfl | rfl | rfl | rfl
        · exact henc
        · exact h .taskDocuments (by decide)
        · exact h .series (by decide)
        · exact h .driftSnapshots (by decide)
      have hengine := h .engineProcessFacts (by decide)
      rw [Readers.kept, henc] at hengine
      exact hengine
    · intro h s hs
      have henc : st.slot .enclosures = r.enclosuresNow f := h.tasks hprimed .enclosures (by decide)
      rw [hslots, hfull]
      cases s with
      | contracts => exact absurd rfl (mem_outputs.mp hs)
      | enclosures => exact henc
      | taskDocuments => exact h.tasks hprimed _ (by decide)
      | series => exact h.tasks hprimed _ (by decide)
      | driftSnapshots => exact h.tasks hprimed _ (by decide)
      | engineStartProgress => exact h.progress _ (by decide)
      | toolReports => exact h.progress _ (by decide)
      | engineProcessFacts =>
        rw [Readers.kept, henc]
        exact h.engines hprimed
      | lifecycleLogs => rw [Readers.kept, henc, Readers.now]
      | providers => rw [Readers.kept, henc, Readers.now]
      | setupProgress => rw [Readers.kept, henc, Readers.now]
      | gates => rw [Readers.kept, henc, Readers.now]
      | setupSummaries => rfl
      | agentPickups => rfl
      | expectationRows => rfl
      | attentionDismissals => rfl

end

def existenceReaders : Readers Nat Nat Nat := { versionReaders with enclosures := fun _ worktrees _ => worktrees }

/-- The worktree is gone since the last tick, the contract is as it was. -/
theorem heartbeat_keeps_worktree : ¬ ∀ (f : Files Nat) (st : Retained Nat Nat),
    (existenceReaders.read f st heartbeatRefresh).inputs = (existenceReaders.read f st fullRefresh).inputs := by
  intro h
  have hnow := h ⟨fun _ => 0, 1⟩ (existenceReaders.read firstFiles ⟨fun _ => 0, false, 0, 0⟩ fullRefresh).retained
  revert hnow
  decide +kernel

end AgentsRemember.Projection
