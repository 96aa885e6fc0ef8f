import AgentsRemember.Dashboard.DiffSound
import Mathlib.Data.List.Range

/-!
# Snapshot plus deltas is the latest projection

A subscriber that has applied what is in its queue follows the published
projection, whenever it subscribed and whatever its dashboard held before; the
sequence numbers it sees are consecutive.
-/

namespace AgentsRemember.Dashboard

open Lib

section
variable {double : Number → Number}

/-- The dashboard once the queue is read to its end. -/
def Subscriber.drained (double : Number → Number) (s : Subscriber) : DashboardState :=
  s.queue.foldl (fun dashboard item => onMessage double dashboard item.2) s.dashboard

def Subscriber.seen (s : Subscriber) : List Nat := (s.received ++ s.queue).map Prod.fst

/-- Every publication changes values that the browser tells apart, if it changes any. -/
def Distinguishes (p : Projector) : Action → Prop
  | .publish current => ∀ previous ∈ p.published, TellsApart previous current
  | _ => True

instance : ∀ (p : Projector) (a : Action), Decidable (Distinguishes p a)
  | p, .publish current => inferInstanceAs (Decidable (∀ previous ∈ p.published, TellsApart previous current))
  | _, .subscribe _ | _, .next _ | _, .detach _ => inferInstanceAs (Decidable True)

structure Consecutive (seq : Nat) (s : Subscriber) : Prop where
  seen : ∃ start, s.seen = List.range' start s.seen.length ∧ (s.attached = true → start + s.seen.length = seq + 1)

structure Sound (double : Number → Number) (p : Projector) : Prop where
  latestStable : p.latestStable = p.published.map stableProjectionState
  consecutive : ∀ s ∈ p.subscribers, Consecutive p.seq s
  follows : ∀ s ∈ p.subscribers, s.attached = true → ∀ current, p.published = some current →
    Follows double (s.drained double) current

theorem number_seqs : ∀ (events : List DeltaEvent) (seq : Nat),
    (number seq events).map Prod.fst = List.range' (seq + 1) events.length
  | [], _ => rfl
  | e :: events, seq => by rw [number, List.map_cons, number_seqs events (seq + 1), List.length_cons, List.range'_succ]

theorem number_events : ∀ (events : List DeltaEvent) (seq : Nat), (number seq events).map Prod.snd = events
  | [], _ => rfl
  | e :: events, seq => by rw [number, List.map_cons, number_events events (seq + 1)]

theorem drained_append (s : Subscriber) (seq : Nat) (events : List DeltaEvent) :
    ({ s with queue := s.queue ++ number seq events } : Subscriber).drained double =
      events.foldl (onMessage double) (s.drained double) := by
  unfold Subscriber.drained
  rw [List.foldl_append]
  conv_rhs => rw [← number_events events seq, List.foldl_map]

variable {p : Projector} {current : WorkspaceProjection} {s : Subscriber}

theorem follows_events (h : Sound double p) (hok : Distinguishes p (.publish current)) (hs : s ∈ p.subscribers)
    (hatt : s.attached = true) :
    Follows double ((p.events current).foldl (onMessage double) (s.drained double)) current := by
  unfold Projector.events
  cases hpub : p.published with
  | none => exact follows_snapshot double _ current
  | some previous =>
    rw [h.latestStable, hpub]
    exact follows_diff (hok previous hpub) (h.follows s hs hatt previous hpub)

theorem Consecutive.broadcast {seq : Nat} (h : Consecutive seq s) (events : List DeltaEvent) :
    Consecutive (seq + events.length) (s.broadcast (number seq events)) := by
  obtain ⟨start, hseen, hend⟩ := h.seen
  unfold Subscriber.broadcast
  by_cases hatt : s.attached = true
  · have hstart := hend hatt
    have happ : ({ s with queue := s.queue ++ number seq events } : Subscriber).seen =
        s.seen ++ List.range' (seq + 1) events.length := by
      simp only [Subscriber.seen, List.map_append, number_seqs, List.append_assoc]
    rw [if_pos hatt]
    refine ⟨start, ?_, fun _ => ?_⟩
    · rw [happ, List.length_append, List.length_range', hseen, List.length_range', ← hstart]
      simp
    · rw [happ, List.length_append, List.length_range']
      omega
  · rw [if_neg hatt]
    exact ⟨start, hseen, fun hf => absurd hf hatt⟩

theorem sound_publish (h : Sound double p) (hok : Distinguishes p (.publish current)) :
    Sound double (p.publishProjection current) where
  latestStable := rfl
  consecutive := by
    intro s' hs'
    obtain ⟨s, hs, rfl⟩ := List.mem_map.mp hs'
    exact (h.consecutive s hs).broadcast (p.events current)
  follows := by
    intro s' hs' hatt' published hpub
    obtain ⟨s, hs, rfl⟩ := List.mem_map.mp hs'
    cases hpub
    by_cases hatt : s.attached = true
    · rw [Subscriber.broadcast, if_pos hatt, drained_append]
      exact follows_events h hok hs hatt
    · rw [Subscriber.broadcast, if_neg hatt] at hatt'
      exact absurd hatt' hatt

theorem sound_set (h : Sound double p) {i : Nat} (hc : Consecutive p.seq s)
    (hf : s.attached = true → ∀ current, p.published = some current → Follows double (s.drained double) current) :
    Sound double (p.setSubscriber i s) where
  latestStable := h.latestStable
  consecutive := by
    intro s' hs'
    rcases List.mem_or_eq_of_mem_set hs' with hs' | rfl
    · exact h.consecutive s' hs'
    · exact hc
  follows := by
    intro s' hs'
    rcases List.mem_or_eq_of_mem_set hs' with hs' | rfl
    · exact h.follows s' hs'
    · exact hf

theorem next_eq_some {s' : Subscriber} (h : s.next double = some s') :
    s'.attached = s.attached ∧ s'.seen = s.seen ∧ s'.drained double = s.drained double := by
  unfold Subscriber.next at h
  split at h
  · cases h
  rename_i item rest hq
  split at h
  · cases h
    refine ⟨rfl, ?_, ?_⟩
    · simp [Subscriber.seen, Subscriber.receive, hq]
    · simp [Subscriber.drained, Subscriber.receive, hq]
  · cases h

theorem sound_subscribe (h : Sound double p) (dashboard : DashboardState) :
    Sound double (p.subscribe double dashboard) := by
  have hfresh : ∀ s : Subscriber, s ∈ (p.subscribe double dashboard).subscribers → s ∈ p.subscribers ∨
      Consecutive p.seq s ∧ ∀ current, p.published = some current → Follows double (s.drained double) current := by
    intro s hs
    rcases List.mem_append.mp hs with hs | hs
    · exact .inl hs
    right
    rw [List.mem_singleton] at hs
    cases hpub : p.published with
    | none =>
      rw [hpub] at hs
      subst hs
      exact ⟨⟨p.seq + 1, rfl, fun _ => rfl⟩, fun current hc => (by cases hc)⟩
    | some published =>
      rw [hpub] at hs
      subst hs
      refine ⟨⟨p.seq, rfl, fun _ => rfl⟩, fun current hc => ?_⟩
      cases hc
      exact follows_snapshot double dashboard published
  constructor
  · exact h.latestStable
  · intro s hs
    rcases hfresh s hs with hs | hs
    · exact h.consecutive s hs
    · exact hs.1
  intro s hs hatt
  rcases hfresh s hs with hs | hs
  · exact h.follows s hs hatt
  · exact hs.2

theorem sound_step {p' : Projector} {a : Action} (h : Sound double p) (hok : Distinguishes p a)
    (hs : p.step double a = some p') : Sound double p' := by
  cases a with
  | publish current =>
    cases hs
    exact sound_publish h hok
  | subscribe dashboard =>
    cases hs
    exact sound_subscribe h dashboard
  | next i =>
    obtain ⟨s', hs', rfl⟩ := Option.map_eq_some_iff.mp hs
    obtain ⟨s, hi, hnext⟩ := Option.bind_eq_some_iff.mp hs'
    have hmem := List.mem_of_getElem? hi
    obtain ⟨hatt, hseen, hdrained⟩ := next_eq_some hnext
    apply sound_set h
    · obtain ⟨start, hrange, hend⟩ := (h.consecutive s hmem).seen
      exact ⟨start, by rw [hseen, ← hrange], fun ha => by rw [hseen]; exact hend (hatt ▸ ha)⟩
    intro ha
    rw [hdrained]
    exact h.follows s hmem (hatt ▸ ha)
  | detach i =>
    obtain ⟨s, hi, rfl⟩ := Option.map_eq_some_iff.mp hs
    obtain ⟨start, hrange, -⟩ := (h.consecutive s (List.mem_of_getElem? hi)).seen
    apply sound_set h
    · exact ⟨start, hrange, fun hf => by cases hf⟩
    · intro hf
      cases hf

theorem sound_init (first : Option WorkspaceProjection) : Sound double (projectorSystem double first).init where
  latestStable := rfl
  consecutive := fun s hs => by cases hs
  follows := fun s hs => by cases hs

theorem seq_advances (h : Sound double p) (hok : Distinguishes p (.publish current)) :
    p.seq < (p.publishProjection current).seq ↔ ∀ previous, p.published = some previous → ¬ SameContent previous current := by
  have hseq : p.seq < (p.publishProjection current).seq ↔ p.events current ≠ [] := by
    show p.seq < p.seq + (p.events current).length ↔ _
    rw [← List.length_pos_iff]
    omega
  rw [hseq]
  unfold Projector.events
  cases hpub : p.published with
  | none => simp
  | some previous =>
    rw [h.latestStable, hpub, Option.map_some, ne_eq, diff_eq_nil (hok previous hpub)]
    constructor
    · intro hne previous' he
      cases he
      exact hne
    · intro hall
      exact hall previous rfl

/-- **Snapshot plus deltas.** As long as every publication changes values that the browser tells apart, every attached
dashboard follows the published projection once its queue is read, sees consecutive sequence numbers, and the sequence
number advances exactly when the stable content changes. -/
theorem dashboard_follows {first : Option WorkspaceProjection} {p : Projector}
    (h : Reachable (projectorSystem double first) Distinguishes p) :
    (∀ s ∈ p.subscribers, s.attached = true → ∀ current, p.published = some current →
      Follows double (s.drained double) current) ∧
    (∀ s ∈ p.subscribers, ∃ start, s.seen = List.range' start s.seen.length) ∧
    ∀ current, Distinguishes p (.publish current) → (p.seq < (p.publishProjection current).seq ↔
      ∀ previous, p.published = some previous → ¬ SameContent previous current) := by
  have hi : Sound double p := h.invariant (I := Sound double) (sound_init first) fun s a t hs hok hst => sound_step hs hok hst
  refine ⟨hi.follows, ?_, fun current hok => seq_advances hi hok⟩
  intro s hs
  obtain ⟨start, hrange, -⟩ := (hi.consecutive s hs).seen
  exact ⟨start, hrange⟩

end

/-! ## A lifecycle that changes, and one whose flag becomes a number -/

def lifecycleNode (ident state : String) (urgent : Scalar) (staleSeconds : Rat) : Node "id" where
  ident := ident
  payload := ⟨.obj [("id", .scalar (.str ident)), ("state", .scalar (.str state)),
    ("ask", .obj [("urgent", .scalar urgent)]), ("staleSeconds", .scalar (.num (.finite staleSeconds)))], rfl⟩
  keyed := rfl

def workspace (lifecycles : List (Node "id")) (groups : List String) (h : (lifecycles.map Node.ident).Nodup) :
    WorkspaceProjection where
  lifecycles := lifecycles
  enclosures := []
  providers := []
  activeWorktreeGroups := groups
  metrics := ⟨.obj [("lifecycleCount", .scalar (.num (.finite lifecycles.length)))], rfl⟩
  analytics := ⟨.obj [], rfl⟩
  lifecyclesUnique := h
  enclosuresUnique := List.nodup_nil
  providersUnique := List.nodup_nil

def runningWorkspace : WorkspaceProjection :=
  workspace [lifecycleNode "lc-1" "running" (.bool true) 3, lifecycleNode "lc-2" "paused" .null 8] ["group-1"] (by decide)

/-- One lifecycle is done, the other gone, and only the age of the first moved besides. -/
def settledWorkspace : WorkspaceProjection := workspace [lifecycleNode "lc-1" "completed" (.bool true) 5] [] (by decide)

def numberedWorkspace : WorkspaceProjection :=
  workspace [lifecycleNode "lc-1" "running" (.num (.finite 1)) 3, lifecycleNode "lc-2" "paused" .null 8] ["group-1"] (by decide)

def subscribedProjector : Projector := (primedProjector (some runningWorkspace)).subscribe id emptyDashboard

theorem subscribed_reachable {ok : Projector → Action → Prop} (hok : ∀ p dashboard, ok p (.subscribe dashboard)) :
    Reachable (projectorSystem id (some runningWorkspace)) ok subscribedProjector := .tail .refl (hok _ _) rfl

theorem settled_followed :
    (subscribedProjector.publishProjection settledWorkspace).seq = 4 ∧
      ∀ s ∈ (subscribedProjector.publishProjection settledWorkspace).subscribers, s.attached = true →
        Follows id (s.drained id) settledWorkspace := by
  have hsteps : Reachable (projectorSystem id (some runningWorkspace)) Distinguishes
      (subscribedProjector.publishProjection settledWorkspace) :=
    .tail (subscribed_reachable fun _ _ => trivial) (by decide +kernel : Distinguishes _ (.publish settledWorkspace)) rfl
  exact ⟨by decide +kernel, fun s hs hatt => (dashboard_follows hsteps).1 s hs hatt settledWorkspace rfl⟩

/-- Python takes a flag for the number 1, so the dashboard keeps the flag. -/
theorem flag_becomes_number :
    ¬ ∀ p, Reachable (projectorSystem id (some runningWorkspace)) always p → ∀ s ∈ p.subscribers, s.attached = true →
      ∀ current, p.published = some current → Follows id (s.drained id) current := by
  intro hall
  have hsteps : Reachable (projectorSystem id (some runningWorkspace)) always
      (subscribedProjector.publishProjection numberedWorkspace) :=
    .tail (i := .publish numberedWorkspace) (subscribed_reachable fun _ _ => trivial) trivial rfl
  have hfollows := hall _ hsteps _ (List.mem_cons_self) rfl numberedWorkspace rfl
  have hpath : Json.Avoids volatileAgeFields.contains [.key "ask", .key "urgent"] := by
    intro k hk
    simp only [List.mem_cons, Json.Step.key.injEq, List.not_mem_nil, or_false] at hk
    rcases hk with rfl | rfl <;> decide
  have hshape := (hfollows.nodes .lifecycle "lc-1").shapeAt hpath
  revert hshape
  decide +kernel

end AgentsRemember.Dashboard
