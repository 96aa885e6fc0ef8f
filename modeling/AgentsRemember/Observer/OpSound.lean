import AgentsRemember.Observer.Ambient

/-!
# What the fold makes of a log

The state, the fleeting flag and the enclosure of a lifecycle depend only on the
first event and on the kinds that write them. A log without corrections and
with known phases always folds, and each event moves these three in one way.
-/

namespace AgentsRemember.Observer

open Lib Lib.JsonText Logs

structure View where
  state : State
  fleeting : Bool
  enclosure : Option String

def LifecycleProjection.view (p : LifecycleProjection) : View := ⟨p.state, p.fleeting, p.enclosure⟩

def seedView (e : Event) : View := ⟨.running, ((field e.data "fleeting").map truth).getD true, e.enclosure⟩

def applyView (v : View) (e : Event) : View :=
  match e.kind with
  | "lifecycle.blocked" => { v with state := .blocked }
  | "lifecycle.awaiting-developer" => { v with state := .awaitingDeveloper }
  | "lifecycle.resumed" => { v with state := .running }
  | "lifecycle.paused" => { v with state := .paused }
  | "lifecycle.promoted" => { v with fleeting := false, enclosure := e.enclosure.or v.enclosure }
  | "lifecycle.ended" => { v with state := coerceEndOutcome (field e.data "outcome") }
  | _ => v

def logView : List Event → View
  | [] => ⟨.running, true, none⟩
  | started :: events => events.foldl applyView (seedView started)

/-- An event that corrects no other, and whose phase, if it has one, is known. -/
structure Plain (e : Event) : Prop where
  uncorrecting : e.kind ≠ correctionKind
  phase : ∀ v, field e.data "phase" = some v → (coercePhase v).isSome

variable {e : Event} {events : List Event}

attribute [local simp] applyView

theorem phase_isSome (h : Plain e) (initial : Phase) :
    ∃ p, ((field e.data "phase").map coercePhase).getD (some initial) = some p := by
  cases hf : field e.data "phase" with
  | none => exact ⟨initial, rfl⟩
  | some v => exact Option.isSome_iff_exists.mp (h.phase v hf)

theorem seedFromStarted_view (h : Plain e) : ∃ p, seedFromStarted e = some p ∧ p.view = seedView e := by
  obtain ⟨phase, hp⟩ := phase_isSome h INITIAL_PHASE
  exact ⟨_, by rw [seedFromStarted, hp]; rfl, rfl⟩

theorem applyKind_view (h : Plain e) (p : LifecycleProjection) :
    ∃ q, applyKind p e = some q ∧ q.view = applyView p.view e := by
  unfold applyKind applyView
  split
  · rename_i hk
    obtain ⟨phase, hp⟩ := phase_isSome h p.phase
    refine ⟨_, by rw [hp]; rfl, ?_⟩
    simp [LifecycleProjection.view, hk]
  all_goals
    refine ⟨_, rfl, ?_⟩
    split <;> simp_all [LifecycleProjection.view, promotedUpdates]

theorem foldEvent_view (h : Plain e) (p : LifecycleProjection) :
    ∃ q, foldEvent .empty p e = some q ∧ q.view = applyView p.view e := by
  obtain ⟨q, hq, hv⟩ := applyKind_view h p
  refine ⟨_, by rw [foldEvent, if_neg h.uncorrecting, hq]; rfl, ?_⟩
  rw [← hv]
  dsimp only
  split <;> rfl

theorem foldEvents_view : ∀ {events : List Event}, (∀ e ∈ events, Plain e) → ∀ p : LifecycleProjection,
    ∃ q, events.foldlM (foldEvent .empty) p = some q ∧ q.view = events.foldl applyView p.view
  | [], _, p => ⟨p, rfl, rfl⟩
  | e :: events, h, p => by
    obtain ⟨he, hrest⟩ := List.forall_mem_cons.mp h
    obtain ⟨q, hq, hv⟩ := foldEvent_view he p
    obtain ⟨r, hr, hw⟩ := foldEvents_view hrest q
    refine ⟨r, by rw [List.foldlM_cons, hq]; exact hr, ?_⟩
    rw [hw, hv, List.foldl_cons]

theorem indexCorrections_plain (h : ∀ e ∈ events, Plain e) : indexCorrections events = .empty := by
  have hnone : events.filterMap correctionOf = [] := by
    apply List.filterMap_eq_nil_iff.mpr
    intro e he
    rw [correctionOf, if_neg (h e he).uncorrecting]
  rw [indexCorrections, hnone]
  rfl

theorem projectWritten_view (hne : events ≠ []) (h : ∀ e ∈ events, Plain e) :
    ∃ p, projectWritten events = some p ∧ p.view = logView events := by
  cases events with
  | nil => exact absurd rfl hne
  | cons started events =>
    obtain ⟨hs, hrest⟩ := List.forall_mem_cons.mp h
    obtain ⟨p, hp, hv⟩ := seedFromStarted_view hs
    obtain ⟨q, hq, hw⟩ := foldEvents_view hrest p
    refine ⟨_, by rw [projectWritten, indexCorrections_plain h, hp, Option.bind_eq_bind, Option.bind_some, hq]; rfl, ?_⟩
    rw [hv] at hw
    exact hw

theorem logView_append (hne : events ≠ []) (e : Event) : logView (events ++ [e]) = applyView (logView events) e := by
  cases events with
  | nil => exact absurd rfl hne
  | cons started events =>
    rw [List.cons_append, logView, logView, List.foldl_append]
    rfl

/-! ## Anchors -/

def promotedTo (e : Event) : Option String := if e.kind = "lifecycle.promoted" then e.enclosure else none

def anchorOf (events : List Event) : Option String := (events.filterMap promotedTo).getLast?

theorem applyView_enclosure (v : View) (e : Event) : (applyView v e).enclosure = (promotedTo e).or v.enclosure := by
  unfold applyView promotedTo
  split <;> simp_all

theorem applyView_fleeting (v : View) (e : Event) : (applyView v e).fleeting = (v.fleeting && !decide (e.kind = "lifecycle.promoted")) := by
  unfold applyView
  split <;> simp_all

theorem logView_anchor {started : Event} (hk : started.kind = "lifecycle.started") (he : started.enclosure = none) (events : List Event) :
    (logView (started :: events)).enclosure = anchorOf (started :: events) ∧
      ((anchorOf (started :: events)).isSome → (logView (started :: events)).fleeting = false) := by
  have hnone : promotedTo started = none := by rw [promotedTo, if_neg (by rw [hk]; decide)]
  have hdrop : anchorOf (started :: events) = anchorOf events := by rw [anchorOf, anchorOf, List.filterMap_cons_none hnone]
  rw [hdrop]
  induction events using List.reverseRecOn with
  | nil => exact ⟨he, nofun⟩
  | append_singleton events e ih =>
    have hanchor : anchorOf (events ++ [e]) = (promotedTo e).or (anchorOf events) := by
      rw [anchorOf, anchorOf, List.filterMap_append, List.getLast?_append]
      cases hp : promotedTo e with
      | none => rw [List.filterMap_cons_none hp]; rfl
      | some x => rw [List.filterMap_cons_some hp]; rfl
    have happend := logView_append (List.cons_ne_nil started events) e
    rw [List.cons_append] at happend
    obtain ⟨ihe, ihf⟩ := ih (by rw [anchorOf, anchorOf, List.filterMap_cons_none hnone])
    rw [happend, hanchor, applyView_enclosure, applyView_fleeting, ihe]
    refine ⟨rfl, fun h => ?_⟩
    by_cases hp : e.kind = "lifecycle.promoted"
    · simp [hp]
    have hno : promotedTo e = none := by rw [promotedTo, if_neg hp]
    rw [hno, Option.none_or] at h
    rw [ihf h, Bool.false_and]

namespace Ambient

/-! ## What an operation emits

Every operation of a session leaves it alone, goes on with its lifecycle, leaves
it, begins a new one or adopts another. No emission trips the fold, and those
for a lifecycle that goes on move the fold's view as the session's.
-/

def LifecycleState.view (c : LifecycleState) : View := ⟨c.state, c.fleeting, c.enclosure⟩

/-! ## What an operation emits -/

/-- An emission that no fold trips over. -/
structure Emission.Plain (e : Emission) : Prop where
  uncorrecting : e.kind ≠ correctionKind
  phase : ∀ v, field e.data "phase" = some v → (coercePhase v).isSome

variable {e : Emission}

theorem Emission.Plain.event (h : e.Plain) (id ts : String) :
    Observer.Plain (e.event id ts) := ⟨h.uncorrecting, h.phase⟩

def Emission.Moves (e : Emission) (v v' : View) : Prop :=
  ∀ id ts, (e.kind = heartbeatKind ∧ v' = v) ∨ (e.kind ≠ heartbeatKind ∧ v' = applyView v (e.event id ts))

def Op.adopted : Op → Option (String × String)
  | .attach lifecycleId enclosure _ _ _ => some (lifecycleId, enclosure)
  | _ => none

def Leaving (s : Session) (es : List Emission) : Prop := ∀ e ∈ es, e.Plain ∧ ∃ c, s.current = some c ∧ e.holder.id = c.id

/-- What an operation of a session can come to. -/
inductive Outcome (s : Session) (minted : String) (op : Op) : Option LifecycleState → List Emission → Prop
  | quiet : Outcome s minted op s.current []
  | continues (c c' : LifecycleState) (e : Emission) (hc : s.current = some c) (hid : c'.id = c.id) (hholder : e.holder = c')
      (hplain : e.Plain) (hmoves : e.Moves c.view c'.view) : Outcome s minted op (some c') [e]
  | leaves (es : List Emission) (hes : Leaving s es) : Outcome s minted op none es
  | begins (c : LifecycleState) (es : List Emission) (hes : Leaving s es) (hid : c.id = minted) (hstate : c.state = .running)
      (hencl : c.enclosure = none) : Outcome s minted op (some c) (es ++ [started c])
  | adopts (c : LifecycleState) (enclosure : String) (es : List Emission) (e : Emission) (hes : Leaving s es)
      (hop : op.adopted = some (c.id, enclosure)) (hnew : ∀ d, s.current = some d → d.id ≠ c.id)
      (hview : c.view = ⟨.running, false, some enclosure⟩) (hholder : e.holder = c) (hplain : e.Plain)
      (hkind : e.kind = "lifecycle.resumed") : Outcome s minted op (some c) (es ++ [e])

attribute [local simp] correctionKind heartbeatKind field Dict.lookupIn Emission.event LifecycleState.view

theorem plain_of_absent (hk : e.kind ≠ correctionKind) (h : field e.data "phase" = none) : e.Plain :=
  ⟨hk, fun v hv => by rw [h] at hv; cases hv⟩

theorem plain_of_phase {p : Phase} (hk : e.kind ≠ correctionKind) (h : field e.data "phase" = some (text p.text)) :
    e.Plain := by
  refine ⟨hk, fun v hv => ?_⟩
  rw [h] at hv
  obtain rfl := Option.some.inj hv
  rw [coercePhase_text]
  rfl

theorem started_plain (c : LifecycleState) : (started c).Plain := by
  apply plain_of_phase (p := c.phase)
  · simp [started]
  · simp [started]

theorem paused_plain (c : LifecycleState) (cause : String) : (paused c cause).Plain := by
  apply plain_of_absent
  · simp [paused]
  · simp [paused]

theorem promoted_plain (c : LifecycleState) (scope : String) : (promoted c scope).Plain := by
  apply plain_of_absent
  · simp [promoted]
  · simp [promoted]

theorem ended_plain (c : LifecycleState) (outcome : String) : (ended c outcome).Plain := by
  apply plain_of_absent
  · simp [ended]
  · simp [ended]

theorem leave_plain {current : Option LifecycleState} {decision : Option SaveDecision} {es : List Emission}
    (h : leave current decision = some es) : ∀ e ∈ es, e.Plain ∧ ∃ c, current = some c ∧ e.holder.id = c.id := by
  cases current with
  | none =>
    simp only [leave, Option.some.injEq] at h
    subst h
    exact List.forall_mem_nil _
  | some c =>
    by_cases hf : c.fleeting = true
    · rcases decision with _ | _ | _ <;> simp only [leave, hf, ↓reduceIte, reduceCtorEq, Option.some.injEq] at h
      · subst h
        intro e he
        rcases List.mem_cons.mp he with rfl | he
        · exact ⟨promoted_plain _ _, c, rfl, rfl⟩
        · rw [List.mem_singleton.mp he]
          exact ⟨paused_plain _ _, c, rfl, rfl⟩
      · subst h
        intro e he
        rw [List.mem_singleton.mp he]
        exact ⟨ended_plain _ _, c, rfl, rfl⟩
    · simp only [leave, hf, Bool.false_eq_true, ↓reduceIte, Option.some.injEq] at h
      subst h
      intro e he
      rw [List.mem_singleton.mp he]
      exact ⟨paused_plain _ _, c, rfl, rfl⟩

variable {s : Session} {minted : String} {now : Stamp}

variable {op : Op} {r : Option LifecycleState × List Emission} {fleeting : Bool} {p : Phase}
  {onUnsaved : Option SaveDecision} {enclosure : String} {repoId : Option String}

theorem outcome_goesOn {c c' : LifecycleState} {kind : String} {trust : Trust} {actor : Actor}
    {data : List (String × Value)} (h : goesOn c' kind trust actor data = some r) (hc : s.current = some c)
    (hid : c'.id = c.id) (hplain : (Emission.mk c' kind trust actor data).Plain)
    (hmoves : (Emission.mk c' kind trust actor data).Moves c.view c'.view) : Outcome s minted op r.1 r.2 := by
  rw [goesOn, Option.some.injEq] at h
  subst h
  exact .continues c c' _ hc hid rfl hplain hmoves

theorem outcome_quiet {current : Option LifecycleState} (hc : s.current = current) (h : some (current, []) = some r) :
    Outcome s minted op r.1 r.2 := by
  rw [Option.some.injEq] at h
  subst h hc
  exact .quiet

theorem start_outcome (h : (Op.start fleeting p).run s minted now = some r) :
    Outcome s minted (Op.start fleeting p) r.1 r.2 := by
  simp only [Op.run] at h
  split at h
  · cases h
  rw [Option.some.injEq] at h
  subst h
  apply Outcome.begins _ []
  · exact List.forall_mem_nil _
  all_goals rfl

theorem block_outcome {ask : Option Value} (h : (Op.block ask).run s minted now = some r) :
    Outcome s minted (Op.block ask) r.1 r.2 := by
  obtain ⟨c, hc, h⟩ := Option.bind_eq_some_iff.mp h
  split at h
  · apply outcome_goesOn h hc rfl
    · apply plain_of_absent
      · simp
      · cases ask <;> simp
    · intro id ts
      simp
  · cases h

theorem resume_outcome (h : Op.resume.run s minted now = some r) : Outcome s minted Op.resume r.1 r.2 := by
  obtain ⟨c, hc, h⟩ := Option.bind_eq_some_iff.mp h
  split at h
  · apply outcome_goesOn h hc rfl
    · apply plain_of_absent
      · simp
      · simp
    · intro id ts
      simp
  · cases h

theorem await_outcome {summary : String} (h : (Op.awaitDeveloper summary).run s minted now = some r) :
    Outcome s minted (Op.awaitDeveloper summary) r.1 r.2 := by
  obtain ⟨c, hc, h⟩ := Option.bind_eq_some_iff.mp h
  split at h
  · apply outcome_goesOn h hc rfl
    · apply plain_of_absent
      · simp
      · simp
    · intro id ts
      simp
  · cases h

theorem resumeFromAwait_outcome (h : Op.resumeFromAwait.run s minted now = some r) :
    Outcome s minted Op.resumeFromAwait r.1 r.2 := by
  obtain ⟨c, hc, h⟩ := Option.bind_eq_some_iff.mp h
  split at h
  · apply outcome_goesOn h hc rfl
    · apply plain_of_absent
      · simp
      · simp
    · intro id ts
      simp
  · cases h

theorem finish_outcome {outcome : String} (h : (Op.finish outcome).run s minted now = some r) :
    Outcome s minted (Op.finish outcome) r.1 r.2 := by
  obtain ⟨state, -, h⟩ := Option.bind_eq_some_iff.mp h
  split at h
  · obtain ⟨c, hc, h⟩ := Option.bind_eq_some_iff.mp h
    rw [Option.some.injEq] at h
    subst h
    apply Outcome.leaves
    intro e he
    rw [List.mem_singleton.mp he]
    exact ⟨ended_plain c outcome, c, hc, rfl⟩
  · cases h

theorem phase_outcome (h : (Op.phase p).run s minted now = some r) : Outcome s minted (Op.phase p) r.1 r.2 := by
  obtain ⟨c, hc, h⟩ := Option.bind_eq_some_iff.mp h
  apply outcome_goesOn h hc rfl
  · apply plain_of_phase (p := p)
    · simp
    · simp
  · intro id ts
    simp

theorem switch_outcome (h : (Op.switch onUnsaved fleeting p).run s minted now = some r) :
    Outcome s minted (Op.switch onUnsaved fleeting p) r.1 r.2 := by
  obtain ⟨left, hleft, h⟩ := Option.bind_eq_some_iff.mp h
  rw [Option.some.injEq] at h
  subst h
  apply Outcome.begins _ left (leave_plain hleft)
  all_goals rfl

theorem promote_outcome {scope : String} (h : (Op.promote enclosure repoId scope).run s minted now = some r) :
    Outcome s minted (Op.promote enclosure repoId scope) r.1 r.2 := by
  obtain ⟨c, hc, h⟩ := Option.bind_eq_some_iff.mp h
  rw [Option.some.injEq] at h
  subst h
  refine Outcome.continues c _ _ hc ?_ ?_ (promoted_plain _ _) ?_
  · rfl
  · rfl
  · intro id ts
    simp [promoted]

theorem attach_outcome {lifecycleId : String}
    (h : (Op.attach lifecycleId enclosure repoId onUnsaved p).run s minted now = some r) :
    Outcome s minted (Op.attach lifecycleId enclosure repoId onUnsaved p) r.1 r.2 := by
  simp only [Op.run] at h
  split at h
  · exact outcome_quiet rfl h
  rename_i hnew
  obtain ⟨left, hleft, h⟩ := Option.bind_eq_some_iff.mp h
  rw [Option.some.injEq] at h
  subst h
  refine Outcome.adopts _ enclosure left _ (leave_plain hleft) ?_ ?_ ?_ ?_ ?_ ?_
  · rfl
  · intro d hd hid
    apply hnew
    rw [hd, Option.any_some]
    exact decide_eq_true hid
  · rfl
  · rfl
  · apply plain_of_absent
    · simp
    · simp
  · rfl

theorem emitTool_outcome {tool : String} {tokens ok : Value}
    (h : (Op.emitTool tool tokens ok).run s minted now = some r) :
    Outcome s minted (Op.emitTool tool tokens ok) r.1 r.2 := by
  simp only [Op.run] at h
  split at h
  · rename_i hc
    exact outcome_quiet hc h
  rename_i c hc
  apply outcome_goesOn h hc rfl
  · apply plain_of_absent
    · simp
    · simp
  · intro id ts
    simp

theorem emitReadPacket_outcome {repoId : String} {files : Value}
    (h : (Op.emitReadPacket repoId files).run s minted now = some r) :
    Outcome s minted (Op.emitReadPacket repoId files) r.1 r.2 := by
  simp only [Op.run] at h
  split at h
  · rename_i hc
    exact outcome_quiet hc h
  rename_i c hc
  apply outcome_goesOn h hc rfl
  · apply plain_of_absent
    · simp
    · simp
  · intro id ts
    simp

theorem heartbeat_outcome (h : Op.heartbeat.run s minted now = some r) : Outcome s minted Op.heartbeat r.1 r.2 := by
  simp only [Op.run] at h
  split at h
  · rename_i hc
    exact outcome_quiet hc h
  rename_i c hc
  split at h
  · exact outcome_quiet hc h
  split at h
  · exact outcome_quiet hc h
  apply outcome_goesOn h hc rfl
  · apply plain_of_phase (p := c.phase)
    · simp
    · simp
  · intro id ts
    exact .inl ⟨rfl, rfl⟩

theorem op_outcome (h : op.run s minted now = some r) : Outcome s minted op r.1 r.2 := by
  cases op with
  | start => exact start_outcome h
  | block => exact block_outcome h
  | resume => exact resume_outcome h
  | awaitDeveloper => exact await_outcome h
  | resumeFromAwait => exact resumeFromAwait_outcome h
  | finish => exact finish_outcome h
  | phase => exact phase_outcome h
  | switch => exact switch_outcome h
  | promote => exact promote_outcome h
  | attach => exact attach_outcome h
  | emitTool => exact emitTool_outcome h
  | emitReadPacket => exact emitReadPacket_outcome h
  | heartbeat => exact heartbeat_outcome h

end Ambient

end AgentsRemember.Observer
