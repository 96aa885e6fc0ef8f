import AgentsRemember.Bridge.LockSound
import Mathlib.Order.PropInstances

/-!
# No snapshot is lost

Since taking the lock suspends nobody, no other task runs between the event
task's taking of an event and the installation of what it reduced to. After a stop
has published, the event task is cancelled and installs nothing more. An event
that the adapter put out before, and that was not taken yet, does count.
-/

namespace AgentsRemember.Bridge

open Lib Coroutine ControlBridge
open Harness (Authority OperationRecord PromptRequest)

/-! ## The record of installs -/

def Writer.byEventTask : Writer → Bool
  | .event _ _ => true
  | .eventTask => true
  | _ => false

def StopPublished (s : ControlBridge) : Prop := ∃ w ∈ s.installs, w.writer = .stop

structure Recorded (s : ControlBridge) : Prop where
  published : ∀ w : Install, s.installs.getLast? = some w → w.snapshot = s.snapshot
  base : ∀ i (w : Install), s.installs[i]? = some w → w.base = i
  taken : ∀ i (w : Install) emitted n, s.installs[i]? = some w → w.writer = .event emitted n → n = i
  quiet : s.installs.Pairwise fun w v => w.writer = .stop → v.writer.byEventTask = false
  begun : s.authorityStarted = true → s.dispatched = true
  tasked : s.eventTask ≠ .absent → s.dispatched = true

/-- There is an event task no more, and there will be none. -/
def Closed (s : ControlBridge) : Prop := s.dispatched = true ∧ s.eventTask ≠ .running

structure Ordered (s : ControlBridge) : Prop extends Recorded s where
  closed : StopPublished s → Closed s

structure SameRecord (s s' : ControlBridge) : Prop where
  snapshot : s'.snapshot = s.snapshot
  installs : s'.installs = s.installs
  eventTask : s'.eventTask = s.eventTask
  authorityStarted : s'.authorityStarted = s.authorityStarted
  dispatched : s'.dispatched = s.dispatched

variable {s s' s₀ : ControlBridge} {w : Writer} {base : Nat} {snapshot : AdapterSnapshot} {forced : Bool}

theorem Ordered.same (h : Ordered s) (hs : SameRecord s s') : Ordered s' := by
  obtain ⟨⟨hp, hb, ht, hq, hl, hd⟩, hc⟩ := h
  refine ⟨⟨?_, ?_, ?_, ?_, ?_, ?_⟩, ?_⟩
  · rwa [hs.installs, hs.snapshot]
  · rwa [hs.installs]
  · rwa [hs.installs]
  · rwa [hs.installs]
  · rwa [hs.authorityStarted, hs.dispatched]
  · rwa [hs.eventTask, hs.dispatched]
  · rwa [StopPublished, Closed, hs.installs, hs.dispatched, hs.eventTask]

theorem Ordered.onAuthority (h : Ordered s) (f : Authority → Authority) :
    Ordered (onAuthority f s) := h.same ⟨rfl, rfl, rfl, rfl, rfl⟩

theorem Recorded.install (h : Recorded s) (hbase : base = s.installs.length)
    (htaken : ∀ emitted n, w = .event emitted n → n = s.installs.length)
    (hquiet : StopPublished s → w.byEventTask = false) : Recorded (s.install w base snapshot) := by
  have hcases : ∀ {i v}, (s.install w base snapshot).installs[i]? = some v →
      s.installs[i]? = some v ∨ (i = s.installs.length ∧ v = ⟨w, base, snapshot⟩) := by
    intro i v hv
    simp only [ControlBridge.install, List.getElem?_append] at hv
    split at hv
    · exact .inl hv
    obtain ⟨hi, rfl⟩ := List.getElem?_eq_some_iff.mp hv
    simp only [List.length_singleton] at hi
    exact .inr ⟨by omega, by simp⟩
  refine ⟨fun v hv => ?_, fun i v hv => ?_, fun i v emitted n hv hw => ?_, ?_, h.begun, h.tasked⟩
  · simp only [ControlBridge.install, List.getLast?_concat, Option.some.injEq] at hv
    exact hv ▸ rfl
  · rcases hcases hv with hv | ⟨rfl, rfl⟩
    · exact h.base i v hv
    · exact hbase
  · rcases hcases hv with hv | ⟨rfl, rfl⟩
    · exact h.taken i v emitted n hv hw
    · exact htaken emitted n hw
  refine List.pairwise_append.mpr ⟨h.quiet, List.pairwise_singleton _ _, fun v hv u hu hstop => ?_⟩
  cases List.mem_singleton.mp hu
  exact hquiet ⟨v, hv, hstop⟩

theorem Ordered.install (h : Ordered s) (hbase : base = s.installs.length)
    (htaken : ∀ emitted n, w = .event emitted n → n = s.installs.length)
    (hquiet : StopPublished s → w.byEventTask = false) (hw : w ≠ .stop) : Ordered (s.install w base snapshot) := by
  refine ⟨h.toRecorded.install hbase htaken hquiet, fun ⟨v, hv, hstop⟩ => ?_⟩
  rcases List.mem_append.mp hv with hv | hv
  · exact h.closed ⟨v, hv, hstop⟩
  · cases List.mem_singleton.mp hv
    exact absurd hstop hw

theorem Ordered.amend (h : Ordered s) (f : AdapterSnapshot → AdapterSnapshot)
    (hevent : ∀ emitted n, w ≠ .event emitted n) (hquiet : StopPublished s → w.byEventTask = false) (hw : w ≠ .stop) :
    Ordered (s.amend w f) := h.install rfl (fun emitted n hn => absurd hn (hevent emitted n)) hquiet hw

/-! ## What a task leaves at its suspensions -/

def grown (s : ControlBridge) : Prop × Prop := (s.dispatched = true, Closed s)

theorem SameRecord.grown (hs : SameRecord s s') : grown s' = grown s := by
  rw [Bridge.grown, Bridge.grown, Closed, Closed, hs.dispatched, hs.eventTask]

abbrev KeepsOrder (t : Task) : Prop := ∀ s, Keeps ControlBridge.deliver Ordered grown t s

abbrev Segment (t : Task) (s₀ s : ControlBridge) : Prop :=
  Runs ControlBridge.deliver Ordered grown (Kept Ordered grown) t s₀ s

structure Live (s₀ s : ControlBridge) : Prop where
  ordered : Ordered s
  open' : ¬ StopPublished s
  grown : grown s₀ ≤ grown s

theorem Live.same (h : Live s₀ s) (hs : SameRecord s s') : Live s₀ s' := by
  refine ⟨h.ordered.same hs, ?_, ?_⟩
  · rw [StopPublished, hs.installs]
    exact h.open'
  · rw [hs.grown]
    exact h.grown

theorem segment_failEvents (h : Live s₀ s) (detail : String) : Segment (failEvents detail) s₀ s :=
  runs_update ⟨h.ordered.amend _ (fun _ _ => nofun) (fun hs => absurd hs h.open') nofun, h.grown⟩

theorem divertEvidence_same (c : Config) (s : ControlBridge) (event : AdapterEvent) :
    SameRecord s (s.divertEvidence c event).2 := by
  simp only [divertEvidence]
  split
  · exact ⟨rfl, rfl, rfl, rfl, rfl⟩
  split
  · exact ⟨rfl, rfl, rfl, rfl, rfl⟩
  split
  · exact ⟨rfl, rfl, rfl, rfl, rfl⟩
  simp only [appendEvidence]
  cases s.evidence.appendEvidence c.evidenceLimit _ with
  | none => exact ⟨rfl, rfl, rfl, rfl, rfl⟩
  | some evidence => exact ⟨rfl, rfl, rfl, rfl, rfl⟩

theorem appendTranscript_same (c : Config) (entries : List TranscriptEntry) :
    ∀ s : ControlBridge, SameRecord s (s.appendTranscript c entries).2 := by
  induction entries with
  | nil => exact fun s => ⟨rfl, rfl, rfl, rfl, rfl⟩
  | cons entry entries ih =>
    intro s
    simp only [appendTranscript]
    split
    · exact ⟨rfl, rfl, rfl, rfl, rfl⟩
    · have := ih { s with transcript := Authority.lastItems c.transcriptLimit (s.transcript ++ [entry]) }
      exact ⟨this.1, this.2, this.3, this.4, this.5⟩

theorem segment_handleEvent (c : Config) (event : AdapterEvent) (emitted : Nat) (h : Live s₀ s) :
    Segment (handleEvent c event emitted s.installs.length) s₀ s := by
  have hdiverted := divertEvidence_same c s event
  have hlive := h.same hdiverted
  refine runs_get (runs_put ?_)
  split
  · exact segment_failEvents hlive _
  split
  · exact segment_failEvents hlive _
  rename_i reduced _ _ updated _
  refine runs_locked ?_
  have hsame : SameRecord (s.divertEvidence c event).2 (observe c reduced (s.divertEvidence c event).2).2 :=
    ⟨rfl, rfl, rfl, rfl, rfl⟩
  have hobserved := hlive.same hsame
  split
  · exact segment_failEvents hobserved _
  refine runs_get (runs_put ?_)
  have happended := appendTranscript_same c reduced.transcript (observe c reduced (s.divertEvidence c event).2).2
  have hend := hobserved.same happended
  have hlength : s.installs.length =
      ((observe c reduced (s.divertEvidence c event).2).2.appendTranscript c reduced.transcript).2.installs.length := by
    rw [happended.installs, hsame.installs, hdiverted.installs]
  split
  · exact segment_failEvents hend _
  refine runs_update ⟨?_, hend.grown⟩
  refine (hend.ordered.install (w := .event emitted s.installs.length) hlength (fun _ _ hn => ?_)
    (fun hs => absurd hs hend.open') nofun).onAuthority _
  cases hn
  exact hlength

theorem keeps_runEvents (c : Config) : KeepsOrder (runEvents c) := by
  intro s u hu hle
  refine runs_await hu le_rfl fun o v a hv _ ha => ?_
  simp only [deliver] at ha
  split at ha
  · cases ha
  · cases ha
    exact ⟨hv, le_rfl⟩
  · cases ha
  all_goals
    cases ha
    have hlive : Live v v := ⟨hv, fun hs => (hv.closed hs).2 ‹_›, le_rfl⟩
  · exact segment_handleEvent c _ _ (hlive.same ⟨rfl, rfl, rfl, rfl, rfl⟩)
  · refine runs_update ?_
    simp only [endEvents]
    split
    · exact ⟨hv.amend _ (fun _ _ => nofun) (fun hs => absurd hs hlive.open') nofun, le_rfl⟩
    · exact ⟨hv, le_rfl⟩
  · exact runs_update ⟨hv.amend _ (fun _ _ => nofun) (fun hs => absurd hs hlive.open') nofun, le_rfl⟩
  · exact ⟨hv, le_rfl⟩

/-! ## The dispatcher -/

theorem runs_lockedAuthority {f : Authority → Authority} {t : Task} (h : Segment t s₀ (onAuthority f s)) :
    Segment (Script.bind (lockedAuthority f) fun _ => t) s₀ s := runs_locked h

theorem segment_lockedDispatch (f : Authority → Authority) (h : Ordered s) (hle : grown s₀ ≤ grown s) :
    Segment (lockedDispatch f) s₀ s := runs_locked ⟨h.onAuthority f, hle⟩

theorem segment_rest (h : Ordered s) (hle : grown s₀ ≤ grown s) :
    Segment rest s₀ s := runs_update ⟨h.onAuthority _, hle⟩

theorem Ordered.markUnknown (h : Ordered s) (mark : Authority → Authority) (detail : String) :
    Ordered (markUnknown mark detail s).2 :=
  (h.onAuthority mark).amend _ (fun _ _ => nofun) (fun _ => rfl) nofun

theorem keeps_runDispatcher : KeepsOrder runDispatcher := by
  intro s u hu hle
  refine runs_await hu le_rfl fun o v a hv _ ha => ?_
  simp only [deliver] at ha
  split at ha
  · cases ha
  split at ha
  · cases ha
    exact ⟨hv, le_rfl⟩
  split at ha
  · cases ha
    exact runs_update (segment_lockedDispatch _ (hv.onAuthority _) le_rfl)
  · cases ha

theorem claimHead_same (c : Config) (r : OperationRecord) (at' : String) (s : ControlBridge) :
    SameRecord s (claimHead c r at' s).2 := by
  simp only [claimHead]
  split <;> exact ⟨rfl, rfl, rfl, rfl, rfl⟩

theorem segment_afterPreflight (c : Config) (r : OperationRecord) (at' : String) (outcome : Harness.PreflightOutcome)
    (h : Ordered s) (hle : grown s₀ ≤ grown s) : Segment (afterPreflight c r at' outcome) s₀ s := by
  cases outcome with
  | clear =>
    have hsame := claimHead_same c r at' s
    have hclaimed := h.same hsame
    rw [← hsame.grown] at hle
    refine runs_locked ?_
    split
    · exact segment_lockedDispatch _ hclaimed hle
    split
    · exact runs_update ⟨hclaimed.onAuthority _, hle⟩
    · exact runs_locked (segment_rest (hclaimed.markUnknown _ _) hle)
  | busy detail => exact runs_lockedAuthority (segment_rest (h.onAuthority _) hle)
  | disconnected detail mayHaveSent vendorCorrelationId =>
    cases mayHaveSent with
    | true => exact runs_locked (segment_rest (h.markUnknown _ _) hle)
    | false => exact runs_lockedAuthority (segment_rest (h.onAuthority _) hle)
  | failed => exact runs_update ⟨h.onAuthority _, hle⟩

theorem keeps_preflighting (c : Config) : KeepsOrder (preflighting c) := by
  intro s u hu hle
  refine runs_await hu le_rfl fun o v a hv _ ha => ?_
  simp only [deliver, Option.some.injEq] at ha
  cases ha
  dsimp only
  split
  · exact ⟨hv, le_rfl⟩
  refine runs_get ?_
  split
  · exact ⟨hv, le_rfl⟩
  · exact segment_afterPreflight c _ _ _ hv le_rfl

theorem applyMethodResult_same (c : Config) (r : OperationRecord) (result : Harness.AdapterResult) (at' : String)
    (s : ControlBridge) : SameRecord s (applyMethodResult c r result at' s).2 := by
  simp only [applyMethodResult]
  split <;> exact ⟨rfl, rfl, rfl, rfl, rfl⟩

theorem segment_afterSend (c : Config) (r : OperationRecord) (at' : String) (outcome : Harness.SendOutcome)
    (h : Ordered s) (hle : grown s₀ ≤ grown s) : Segment (afterSend c r at' outcome) s₀ s := by
  cases outcome with
  | returned result =>
    have hsame := applyMethodResult_same c r result at' s
    have happlied := h.same hsame
    rw [← hsame.grown] at hle
    refine runs_locked ?_
    split
    · exact segment_lockedDispatch _ happlied hle
    · exact segment_lockedDispatch _ happlied hle
    · exact segment_rest happlied hle
  | busy detail => exact segment_lockedDispatch _ h hle
  | disconnected detail mayHaveSent vendorCorrelationId =>
    cases mayHaveSent with
    | true => exact runs_locked (segment_rest (h.markUnknown _ _) hle)
    | false => exact segment_lockedDispatch _ h hle
  | failed detail => exact runs_locked (segment_rest (h.markUnknown _ _) hle)

theorem keeps_sending (c : Config) : KeepsOrder (sending c) := by
  intro s u hu hle
  refine runs_await hu le_rfl fun o v a hv _ ha => ?_
  simp only [deliver, Option.some.injEq] at ha
  cases ha
  dsimp only
  split
  · exact ⟨hv, le_rfl⟩
  refine runs_get ?_
  split
  · exact ⟨hv, le_rfl⟩
  · exact segment_afterSend c _ _ _ hv le_rfl

theorem keeps_program (c : Config) : ∀ p, KeepsOrder (program c p)
  | .events => keeps_runEvents c
  | .dispatching => keeps_runDispatcher
  | .preflighting => keeps_preflighting c
  | .sending => keeps_sending c

/-! ## Starting and stopping -/

theorem Ordered.launched (h : Ordered s) (snapshot : AdapterSnapshot) : Ordered (launched s snapshot) := by
  have hinstall : Ordered (s.install .launch s.installs.length snapshot) :=
    h.install rfl (fun _ _ => nofun) (fun _ => rfl) nofun
  simp only [Bridge.launched]
  split
  · rename_i hd
    exact ⟨{ hinstall with begun := fun _ => hd },
      hinstall.closed⟩
  rename_i hd
  -- Nothing was stopped before the authority's one task existed.
  have hclosed : ¬ StopPublished (s.install .launch s.installs.length snapshot) := fun hs => hd (hinstall.closed hs).1
  split <;>
    exact ⟨{ hinstall with begun := fun _ => rfl, tasked := fun _ => rfl },
      fun hs => absurd hs hclosed⟩

theorem grown_launched (s : ControlBridge) (snapshot : AdapterSnapshot) : grown s ≤ grown (launched s snapshot) := by
  simp only [Bridge.launched]
  split
  · exact le_rfl
  · rename_i hd
    exact ⟨fun h => absurd h hd, fun h => absurd h.1 hd⟩

theorem runs_cancelEventTask {E : Option Unit → ControlBridge → ControlBridge → Prop} (h : Recorded s)
    (hstop : StopPublished s → s.dispatched = true) (hle : grown s₀ ≤ grown s)
    (hE : ∀ s₁ s', Ordered s' → (s'.authorityStarted = true → Closed s') → grown s₁ ≤ grown s' → E (some ()) s₁ s') :
    Runs deliver Ordered grown E cancelEventTask s₀ s := by
  refine runs_get ?_
  split
  · rename_i habsent
    have hrunning : s.eventTask ≠ .running := by
      rw [habsent]
      nofun
    exact hE s₀ s ⟨h, fun hs => ⟨hstop hs, hrunning⟩⟩ (fun hs => ⟨h.begun hs, hrunning⟩) hle
  rename_i hpresent
  have hclosed : Closed { s with eventTask := .cancelled } := ⟨h.tasked hpresent, nofun⟩
  refine runs_put ⟨⟨⟨{ h with tasked := fun _ => h.tasked hpresent }, fun _ => hclosed⟩,
    hle.1, fun _ => hclosed⟩, ?_⟩
  intro o v a hv hle' ha
  simp only [deliver, Option.some.injEq] at ha
  cases ha
  exact hE v v hv (fun _ => hle'.2 hclosed) le_rfl

def Stopping (forced : Bool) (s : ControlBridge) : Prop := s.dispatched = true ∧ (forced = true → Closed s)

theorem Stopping.later (h : Stopping forced s) (hle : grown s ≤ grown s') :
    Stopping forced s' := ⟨hle.1 h.1, fun hf => hle.2 (h.2 hf)⟩

structure Stopped (forced : Bool) (s : ControlBridge) : Prop extends Recorded s where
  dispatched : StopPublished s → s.dispatched = true
  closed : forced = true → StopPublished s → Closed s

theorem Stopped.amend (h : Ordered s) (hs : Stopping forced s) (f : AdapterSnapshot → AdapterSnapshot) :
    Stopped forced (s.amend .stop f) :=
  ⟨h.toRecorded.install rfl (fun _ _ => nofun) (fun _ => rfl), fun _ => hs.1, fun hf _ => hs.2 hf⟩

section
variable {E : Option Bool → ControlBridge → ControlBridge → Prop} (forced : Bool) {s₀ s : ControlBridge}
  (hE : ∀ clean s₁ s', Stopped forced s' → grown s₁ ≤ grown s' → E (some clean) s₁ s')

include hE in
theorem runs_stopAdapter (h : Ordered s) (hs : Stopping forced s) (hle : grown s₀ ≤ grown s) :
    Runs deliver Ordered grown E (stopAdapter forced) s₀ s := by
  refine runs_update (runs_await (h.onAuthority _) hle fun o v a hv hle' ha => ?_)
  simp only [deliver, Option.some.injEq] at ha
  cases ha
  refine runs_locked (runs_await hv le_rfl fun o u a hu hle'' ha => ?_)
  simp only [deliver, Option.some.injEq] at ha
  cases ha
  have hstop : Stopping forced u := (hs.later hle').later hle''
  split
  · exact runs_update (hE _ _ _ (.amend hu hstop _) le_rfl)
  · exact runs_update (hE _ _ _ (.amend hu hstop _) le_rfl)

include hE in
theorem runs_stopAuthority (h : Ordered s) (hclosed : forced = true → s.authorityStarted = true → Closed s)
    (hle : grown s₀ ≤ grown s) : Runs deliver Ordered grown E (stopAuthority forced) s₀ s := by
  refine runs_get ?_
  split
  · exact hE true s₀ s ⟨h.toRecorded, fun hs => (h.closed hs).1, fun _ hs => h.closed hs⟩ hle
  rename_i hstarted
  have hstarted : s.authorityStarted = true := Bool.eq_true_of_not_eq_false hstarted
  have hstopping : Stopping forced s := ⟨h.begun hstarted, fun hf => hclosed hf hstarted⟩
  refine runs_put (Runs.bind _ ?_)
  have hput : Ordered (onAuthority (fun a => { a with accepting := false }) { s with authorityStarted := false }) :=
    ⟨{ h with begun := nofun }, h.closed⟩
  simp only [awaitDispatch]
  split
  · exact runs_stopAdapter forced hE hput hstopping hle
  refine runs_locked ?_
  split
  · refine ⟨⟨hput, hle⟩, fun o v a hv hle' ha => ?_⟩
    simp only [deliver, Option.some.injEq] at ha
    cases ha
    exact runs_stopAdapter forced hE hv (hstopping.later hle') le_rfl
  · exact runs_stopAdapter forced hE hput hstopping hle

end

theorem keeps_stop (mode : ShutdownMode) : KeepsOrder (stop mode) := by
  intro s u hu hle
  refine runs_get ?_
  split
  · exact ⟨hu, le_rfl⟩
  have hput : Ordered { u with stopped := true } := hu.same ⟨rfl, rfl, rfl, rfl, rfl⟩
  cases mode with
  | forced =>
    refine runs_put (Runs.bind _ (runs_cancelEventTask hput.toRecorded (fun hs => (hput.closed hs).1) le_rfl ?_))
    intro s₁ s' hs' hclosed hle'
    refine Runs.bind _ (runs_stopAuthority true (fun clean s₂ v hv hle => ?_) hs' (fun _ => hclosed) hle')
    dsimp only [Option.elim]
    split <;> exact ⟨⟨hv.toRecorded, hv.closed rfl⟩, hle⟩
  | graceful =>
    dsimp only
    split
    · exact ⟨hu, le_rfl⟩
    refine runs_put (Runs.bind _ (runs_stopAuthority false (fun clean s₁ v hv hle => ?_) hput nofun le_rfl))
    refine Runs.bind _ (runs_cancelEventTask hv.toRecorded hv.dispatched hle ?_)
    intro s₂ s' hs' _ hle'
    dsimp only [Option.elim]
    split <;> exact ⟨hs', hle'⟩

theorem keeps_start (c : Config) : KeepsOrder (start c) := by
  intro s u hu hle
  refine runs_get ?_
  split
  · exact ⟨hu, le_rfl⟩
  refine runs_await hu le_rfl fun o v a hv hle' ha => ?_
  simp only [deliver, Option.some.injEq] at ha
  cases ha
  have hcleanup : Segment (Script.bind (ask (.adapterStop true)) fun _ => .raised) v v := by
    refine runs_await hv le_rfl fun o w a hw hle'' ha => ?_
    simp only [deliver, Option.some.injEq] at ha
    cases ha
    exact ⟨hw, le_rfl⟩
  dsimp only
  split
  · exact hcleanup
  split
  · exact hcleanup
  · exact runs_update ⟨hv.launched _, grown_launched v _⟩

theorem keeps_markFailed (detail : String) : KeepsOrder (markFailed detail) := by
  intro s u hu hle
  refine runs_get ?_
  split
  · exact ⟨hu, le_rfl⟩
  · have hamend := hu.amend (w := .launch) (failure detail) (fun _ _ => nofun) (fun _ => rfl) nofun
    exact runs_update ⟨hamend.same ⟨rfl, rfl, rfl, rfl, rfl⟩, le_rfl⟩

theorem keeps_underLock (f : Authority → Authority) : KeepsOrder (underLock f) := by
  intro s u hu hle
  refine runs_get ?_
  split
  · exact ⟨hu, le_rfl⟩
  · exact runs_lockedAuthority ⟨hu.onAuthority f, le_rfl⟩

theorem keeps_reconcile (c : Config) (requestId : String) (epoch : Option String) :
    KeepsOrder (reconcile c requestId epoch) := by
  intro s u hu hle
  refine runs_get ?_
  split
  · exact ⟨hu, le_rfl⟩
  refine runs_locked ?_
  have hasked := hu.onAuthority fun a => (a.reconcile c.toConfig requestId epoch).2
  split
  · exact ⟨hasked, le_rfl⟩
  · exact ⟨hasked, le_rfl⟩
  refine runs_await hasked le_rfl fun o v a hv hle' ha => ?_
  simp only [deliver, Option.some.injEq] at ha
  cases ha
  exact runs_lockedAuthority ⟨hv.onAuthority _, le_rfl⟩

theorem keeps_respond (response : InteractionResponse) (answered : Bool) : KeepsOrder (respond response answered) := by
  intro s u hu hle
  refine runs_get ?_
  split
  · exact ⟨hu, le_rfl⟩
  refine runs_locked ?_
  split
  · exact ⟨hu, le_rfl⟩
  refine runs_await hu le_rfl fun o v a hv hle' ha => ?_
  simp only [deliver, Option.some.injEq] at ha
  cases ha
  dsimp only
  split
  · exact runs_locked ⟨hv, le_rfl⟩
  refine runs_await hv le_rfl fun o w a hw hle'' ha => ?_
  simp only [deliver, Option.some.injEq] at ha
  cases ha
  refine runs_get ?_
  split
  · exact ⟨hw, le_rfl⟩
  · exact runs_update ⟨hw.install rfl (fun _ _ => nofun) (fun _ => rfl) nofun, le_rfl⟩

theorem keeps_entry (c : Config) : ∀ call, KeepsOrder (entry c call)
  | .start => keeps_start c
  | .markFailed detail => keeps_markFailed detail
  | .stop mode => keeps_stop mode
  | .submit _ => keeps_underLock _
  | .setModel _ _ => keeps_underLock _
  | .setEffort _ _ => keeps_underLock _
  | .withdraw _ _ _ _ => keeps_underLock _
  | .resolveOperation _ _ _ _ _ => keeps_underLock _
  | .ledger => keeps_underLock _
  | .reconcile requestId epoch => keeps_reconcile c requestId epoch
  | .respond response answered => keeps_respond response answered
  | .emit _ => fun _ _ hu _ => runs_update ⟨hu.same ⟨rfl, rfl, rfl, rfl, rfl⟩, le_rfl⟩

/-! ## Every run -/

theorem ordered_init (c : Config) : Ordered (.init c) := by
  have hnone : (ControlBridge.init c).installs = [] := rfl
  refine ⟨⟨fun w hw => ?_, fun i w hw => ?_, fun i w _ _ hw => ?_, .nil, fun h => ?_, fun h => absurd rfl h⟩,
    fun ⟨w, hw, _⟩ => ?_⟩
  · rw [hnone] at hw
    cases hw
  · simp [hnone] at hw
  · simp [hnone] at hw
  · cases h
  · rw [hnone] at hw
    cases hw

theorem sound_bridge (c : Config) {l : EventLoop ControlBridge Await.Answer Program}
    (h : Reachable (bridgeSystem c) always l) : l.Sound deliver Ordered grown :=
  EventLoop.sound_of_reachable (guarded_program c) (keeps_program c) (guarded_entry c) (keeps_entry c) (ordered_init c) h

/-- No install replaces one that its writer had not read, and the event task installs nothing after a stop. -/
structure UpdatesKept (s : ControlBridge) : Prop where
  published : ∀ w : Install, s.installs.getLast? = some w → w.snapshot = s.snapshot
  current : ∀ i (w : Install), s.installs[i]? = some w → w.base = i
  taken : ∀ i (w : Install) emitted n, s.installs[i]? = some w → w.writer = .event emitted n → n = i
  stopped : ∀ (i j : Nat) (w v : Install), i < j → s.installs[i]? = some w → s.installs[j]? = some v → w.writer = .stop →
    v.writer.byEventTask = false

/-- No event that was put out before a `disconnected` of a stop or of the authority makes the snapshot ready again. -/
def NoOlderReady (s : ControlBridge) : Prop :=
  ∀ (i j : Nat) (w v : Install) emitted n, i < j → s.installs[i]? = some w → s.installs[j]? = some v →
    (w.writer = .stop ∨ w.writer = .authority) → w.snapshot.control = .disconnected → v.writer = .event emitted n →
    emitted ≤ i → v.snapshot.control ≠ .ready

/-! ### An event that was queued before a failed send -/

def sampleIdentity : ControlIdentity := ⟨"seat-1", "ar-seat-1", "2026-01-01T00:00:00Z"⟩

def sampleConfig : Config where
  bridgeEpoch := "epoch-1"
  timelineLimit := 2
  ledgerLimit := 2
  assetSubmitCapable := false
  payloadDigest := fun text _ => text
  identity := sampleIdentity
  transcriptLimit := 10
  evidenceLimit := 10
  clipEvidencePayload := id

def readySnapshot : AdapterSnapshot where
  identity := sampleIdentity
  control := .ready
  activity := .idle
  acceptance := .immediate

def readyEvent : AdapterEvent where
  sequence := 1
  kind := "state"
  createdAt := "2026-01-01T00:00:01Z"
  identity := sampleIdentity
  snapshot := some readySnapshot

def sampleOutside : Outside where
  stream := .queued
  preflight := (.clear, "2026-01-01T00:00:02Z")
  send := (.disconnected "write failed" true none, "2026-01-01T00:00:03Z")
  handshake := some
    { protocolVersion := controlProtocolVersion
      identity := sampleIdentity
      capabilities := requiredAdapterCapabilities
      snapshot := readySnapshot }
  responded := true
  snapshot := readySnapshot
  reconciled := .error ""
  stop := none

def sampleRequest : PromptRequest where
  requestId := "prompt-1"
  source := .cockpit
  text := "hello"
  submittedAt := "2026-01-01T00:00:01Z"

def queuedEventRun : List (LoopAction Call Outside) :=
  [.call .start, .resume 2 sampleOutside, .resume 2 sampleOutside,
    .call (.emit readyEvent), .resume 3 sampleOutside,
    .call (.submit sampleRequest), .resume 4 sampleOutside,
    .resume 1 sampleOutside, .resume 1 sampleOutside, .resume 1 sampleOutside,
    .resume 0 sampleOutside]

def installed (l : EventLoop ControlBridge Await.Answer Program) : List (Writer × Harness.ControlState) :=
  l.store.installs.map fun w => (w.writer, w.snapshot.control)

theorem queuedEventRun_installs :
    (runFrom (bridgeSystem sampleConfig) (bridgeSystem sampleConfig).init queuedEventRun).map installed =
      some [(.launch, .ready), (.authority, .disconnected), (.event 1 2, .ready)] := by decide

/-- **No snapshot update is lost.** -/
theorem snapshot_updates_kept (c : Config) {l : EventLoop ControlBridge Await.Answer Program}
    (h : Reachable (bridgeSystem c) always l) : l.held = false ∧ UpdatesKept l.store := by
  have hl := sound_bridge c h
  refine ⟨hl.free, hl.store.published, hl.store.base, hl.store.taken, fun i j w v hij hi hj => ?_⟩
  obtain ⟨hi', rfl⟩ := List.getElem?_eq_some_iff.mp hi
  obtain ⟨hj', rfl⟩ := List.getElem?_eq_some_iff.mp hj
  exact List.pairwise_iff_getElem.mp hl.store.quiet i j hi' hj' hij

theorem queued_event_updates_kept : ∃ l, Reachable (bridgeSystem sampleConfig) always l ∧
    installed l = [(.launch, .ready), (.authority, .disconnected), (.event 1 2, .ready)] ∧
    l.held = false ∧ UpdatesKept l.store := by
  obtain ⟨l, hl, hinstalled⟩ := Option.map_eq_some_iff.mp queuedEventRun_installs
  exact ⟨l, reachable_of_runFrom hl, hinstalled, snapshot_updates_kept sampleConfig (reachable_of_runFrom hl)⟩

/-- The event was put out when there was one install, and is installed after the authority's. -/
theorem queued_event_ready_again : ¬ ∀ (c : Config) (l : EventLoop ControlBridge Await.Answer Program),
    Reachable (bridgeSystem c) always l → NoOlderReady l.store := by
  intro h
  obtain ⟨l, hl, hinstalled⟩ := Option.map_eq_some_iff.mp queuedEventRun_installs
  have hreached := h sampleConfig l (reachable_of_runFrom hl)
  have hat (i : Nat) := congrArg (fun ws => ws[i]?) hinstalled
  simp only [installed, List.getElem?_map] at hat
  obtain ⟨w, hw, hw'⟩ := Option.map_eq_some_iff.mp (hat 1)
  obtain ⟨v, hv, hv'⟩ := Option.map_eq_some_iff.mp (hat 2)
  obtain ⟨hwriter, hcontrol⟩ := Prod.mk.injEq _ _ _ _ ▸ hw'
  obtain ⟨hevent, hready⟩ := Prod.mk.injEq _ _ _ _ ▸ hv'
  exact hreached 1 2 w v 1 2 (by decide) hw hv (.inr hwriter) hcontrol hevent (by decide) hready

end AgentsRemember.Bridge
