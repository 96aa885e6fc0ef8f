import AgentsRemember.Lifecycle.BoundarySound

/-!
# Superseded workers

Nothing a worker does compares its attempt with the attempt of the record: it
starts on a record that is queued or running, and its updates meet whatever
record there is. One execution for each attempt, and no effect of an older
worker, hold while an attempt is installed only when no worker is left and no
launch is to come.
-/

namespace AgentsRemember.Lifecycle

open Lib

def Action.worker : Action → Option Nat
  | progress i .. => some i
  | heartbeat i .. => some i
  | finish i .. => some i
  | _ => none

def Action.isProgress : Action → Bool
  | progress .. => true
  | _ => false

def Fenced (hash : Hashing) (clock : Clock) (w : World) : Prop :=
  ∀ a i worker r w', a.worker = some i → w.workers[i]? = some worker → w.store = some r →
    worker.launchedFor < r.attempt → w.step hash clock a = some w' →
    w'.store = w.store ∧ (a.isProgress = true → ∀ worker', w'.workers[i]? = some worker' → worker'.state ≠ .executing)

structure WorkersFenced (hash : Hashing) (clock : Clock) (w : World) : Prop where
  once : (w.bodies.map Prod.snd).Nodup
  fenced : Fenced hash clock w

def World.recovers (w : World) : Action → Bool
  | .proceed i =>
    match w.calls[i]?, w.store with
    | some (.recovering n _), some current =>
      current.attempt = n && current.status ≠ .completed &&
        !((current.status = .failed || current.status = .cancelled) && current.irreversibleBoundaryEntered)
    | _, _ => false
  | _ => false

def StartCall.pending : StartCall → Bool
  | launching _ => true
  | _ => false

/-- An attempt is installed only when no worker is left and no launch is to come. -/
def Alone (w : World) (a : Action) : Prop :=
  (w.publishes a).isSome || w.recovers a →
    (∀ worker ∈ w.workers, worker.state = .gone) ∧ ∀ call ∈ w.calls, call.pending = false

def World.launchAt (w : World) (i : Nat) (r : OperationRecord) : Prop := w.calls[i]? = some (.launching r)

structure FenceInv (w : World) : Prop where
  empty : w.store = none → w.workers = [] ∧ ∀ i r, ¬ w.launchAt i r
  distinct : (w.workers.map Worker.launchedFor).Nodup
  oneLaunch : ∀ i j r r', w.launchAt i r → w.launchAt j r' → i = j
  launch : ∀ i r, w.launchAt i r → ∀ current, w.store = some current →
    r.attempt = current.attempt ∧ ∀ worker ∈ w.workers, worker.launchedFor < r.attempt
  live : ∀ worker ∈ w.workers, ∀ current, w.store = some current →
    worker.launchedFor ≤ current.attempt ∧ (worker.state ≠ .gone → worker.launchedFor = current.attempt)
  bodies : ∀ p ∈ w.bodies, ∃ worker, w.workers[p.1]? = some worker ∧ worker.launchedFor = p.2 ∧ worker.state ≠ .spawned
  once : (w.bodies.map Prod.snd).Nodup

section
variable {hash : Hashing} {clock : Clock} {w w' : World} {a : Action} {i : Nat}

/-! ## Lists of calls and workers -/

variable {call : StartCall} {j n : Nat} {r current : OperationRecord} {worker : Worker} {s : WorkerState}
  {writer : Writer}

theorem launching_setCall (h : (w.setCall i call).launchAt j r) :
    (j = i ∧ call = .launching r) ∨ (j ≠ i ∧ w.launchAt j r) := by
  simp only [World.launchAt, World.setCall, List.getElem?_set] at h
  split at h
  · rename_i hij
    split at h
    · exact Or.inl ⟨hij.symm, Option.some.inj h⟩
    · cases h
  · rename_i hij
    exact Or.inr ⟨fun heq => hij heq.symm, h⟩

theorem launching_addCall (h : (w.addCall call).launchAt j r) :
    w.launchAt j r ∨ (j = w.calls.length ∧ call = .launching r) := by
  simp only [World.launchAt, World.addCall, List.getElem?_append] at h
  split at h
  · exact Or.inl h
  rename_i hj
  rw [List.getElem?_singleton] at h
  split at h
  · exact Or.inr ⟨by omega, Option.some.inj h⟩
  · cases h

theorem launchedFor_setWorker (hw : w.workers[i]? = some worker) :
    (w.setWorker i worker s).workers.map Worker.launchedFor = w.workers.map Worker.launchedFor := by
  obtain ⟨hi, hget⟩ := List.getElem?_eq_some_iff.mp hw
  simp only [World.setWorker, List.map_set]
  have hi' : i < (w.workers.map Worker.launchedFor).length := by simpa using hi
  have hsame : worker.launchedFor = (w.workers.map Worker.launchedFor)[i] := by simp [hget]
  rw [hsame, List.set_getElem_self]

theorem worker_of_body (h : FenceInv w) (hw : w.workers[i]? = some worker) (hn : worker.launchedFor = n)
    (hs : worker.state = .spawned) : n ∉ w.bodies.map Prod.snd := by
  intro hmem
  obtain ⟨p, hp, hpn⟩ := List.mem_map.mp hmem
  obtain ⟨other, ho, hon, hos⟩ := h.bodies p hp
  have hij : i = p.1 := by
    obtain ⟨hi, hgi⟩ := List.getElem?_eq_some_iff.mp hw
    obtain ⟨hj, hgj⟩ := List.getElem?_eq_some_iff.mp ho
    have hi' : i < (w.workers.map Worker.launchedFor).length := by simpa using hi
    have hj' : p.1 < (w.workers.map Worker.launchedFor).length := by simpa using hj
    have hsame : (w.workers.map Worker.launchedFor)[i] = (w.workers.map Worker.launchedFor)[p.1] := by
      simp [hgi, hgj, hn, hon, hpn]
    exact h.distinct.getElem_inj_iff.mp hsame
  subst hij
  rw [hw] at ho
  cases ho
  exact hos hs

theorem mem_setWorker {worker' : Worker} (h : worker' ∈ (w.setWorker i worker s).workers) :
    worker' ∈ w.workers ∨ worker' = { worker with state := s } := List.mem_or_eq_of_mem_set h

theorem recovers_of {stamp : String} (hc : w.calls[i]? = some (.recovering n stamp))
    (h : w.store.replaceForRecovery (requeued stamp) n = .ok (r, true)) : w.recovers (.proceed i) = true := by
  obtain ⟨current, hs, ⟨hw, -⟩ | ⟨-, -, hatt, hdone, hterm⟩⟩ := OperationStore.replaceForRecovery_ok h
  · cases hw
  simp only [World.recovers, hc, hs, hatt, decide_true, Bool.true_and, ne_eq, hdone, not_false_eq_true]
  cases hst : current.status with
  | completed => exact absurd hst hdone
  | queued | running | inputRequired => rfl
  | failed | cancelled => simp [hterm (by rw [hst]; rfl)]

theorem not_launchAt (h : ∀ call ∈ w.calls, call.pending = false) (i : Nat) (r : OperationRecord) : ¬ w.launchAt i r := by
  intro hl
  have hp := h _ (List.mem_of_getElem? hl)
  cases hp

theorem fenceInv_install (h : FenceInv w) (hs : w.store = some current) (hlt : current.attempt < r.attempt)
    (hgone : ∀ worker ∈ w.workers, worker.state = .gone) (hcalls : ∀ call ∈ w.calls, call.pending = false) :
    FenceInv ((w.wrote writer r).setCall i (.launching r)) := by
  have hlaunch : ∀ {j r'}, ((w.wrote writer r).setCall i (.launching r)).launchAt j r' → j = i ∧ r' = r := by
    intro j r' hl
    rcases launching_setCall hl with ⟨hj, hr⟩ | ⟨-, hl⟩
    · cases hr
      exact ⟨hj, rfl⟩
    · exact absurd hl (not_launchAt (w := w) hcalls j r')
  refine ⟨fun hn => ?_, h.distinct, ?_, ?_, ?_, h.bodies, h.once⟩
  · cases hn
  · intro j k r₁ r₂ h₁ h₂
    exact (hlaunch h₁).1.trans (hlaunch h₂).1.symm
  · intro j r' hl c hc
    cases hc
    obtain ⟨-, rfl⟩ := hlaunch hl
    refine ⟨rfl, fun worker hw => ?_⟩
    have hle := (h.live worker hw current hs).1
    omega
  intro worker hw c hc
  cases hc
  have hle := (h.live worker hw current hs).1
  exact ⟨by omega, fun hne => absurd (hgone worker hw) hne⟩

/-! ## Updating -/

theorem fenceInv_update (h : FenceInv w) (hs : w.store = some current) (hatt : r.attempt = current.attempt) :
    FenceInv (w.wrote writer r) := by
  refine ⟨fun hn => ?_, h.distinct, h.oneLaunch, ?_, ?_, h.bodies, h.once⟩
  · cases hn
  · intro j r' hl c hc
    cases hc
    rw [hatt]
    exact h.launch j r' hl current hs
  intro worker hw c hc
  cases hc
  rw [hatt]
  exact h.live worker hw current hs

theorem fenceInv_setCall (h : FenceInv w) (hne : ∀ r, call ≠ .launching r) : FenceInv (w.setCall i call) := by
  have hlaunch : ∀ {j r}, (w.setCall i call).launchAt j r → w.launchAt j r := by
    intro j r hl
    rcases launching_setCall hl with ⟨-, hr⟩ | ⟨-, hl⟩
    · exact absurd hr (hne r)
    · exact hl
  exact ⟨fun hn => ⟨(h.empty hn).1, fun j r hl => (h.empty hn).2 j r (hlaunch hl)⟩, h.distinct,
    fun j k r r' hj hk => h.oneLaunch j k r r' (hlaunch hj) (hlaunch hk),
    fun j r hl => h.launch j r (hlaunch hl), h.live, h.bodies, h.once⟩

theorem fenceInv_addCall (h : FenceInv w) (hne : ∀ r, call ≠ .launching r) : FenceInv (w.addCall call) := by
  have hlaunch : ∀ {j r}, (w.addCall call).launchAt j r → w.launchAt j r := by
    intro j r hl
    rcases launching_addCall hl with hl | ⟨-, hr⟩
    · exact hl
    · exact absurd hr (hne r)
  exact ⟨fun hn => ⟨(h.empty hn).1, fun j r hl => (h.empty hn).2 j r (hlaunch hl)⟩, h.distinct,
    fun j k r r' hj hk => h.oneLaunch j k r r' (hlaunch hj) (hlaunch hk),
    fun j r hl => h.launch j r (hlaunch hl), h.live, h.bodies, h.once⟩

theorem fenceInv_setWorker (h : FenceInv w) (hw : w.workers[i]? = some worker) (hs : s ≠ .spawned)
    (hl : worker.state = .gone → s = .gone) : FenceInv (w.setWorker i worker s) := by
  have hmem : worker ∈ w.workers := List.mem_of_getElem? hw
  have hdist := launchedFor_setWorker (s := s) hw
  refine ⟨fun hn => ?_, ?_, h.oneLaunch, ?_, ?_, ?_, h.once⟩
  · rw [(h.empty hn).1] at hw
    cases hw
  · rw [hdist]
    exact h.distinct
  · intro j r hla c hc
    refine ⟨(h.launch j r hla c hc).1, fun x hx => ?_⟩
    rcases mem_setWorker hx with hx | rfl
    · exact (h.launch j r hla c hc).2 x hx
    · exact (h.launch j r hla c hc).2 worker hmem
  · intro x hx c hc
    rcases mem_setWorker hx with hx | rfl
    · exact h.live x hx c hc
    · exact ⟨(h.live worker hmem c hc).1, fun hne => (h.live worker hmem c hc).2 fun hg => hne (hl hg)⟩
  intro p hp
  obtain ⟨x, hx, hn, hst⟩ := h.bodies p hp
  simp only [World.setWorker, List.getElem?_set]
  split
  · rename_i hip
    rw [← hip, hw] at hx
    cases hx
    obtain ⟨hi, -⟩ := List.getElem?_eq_some_iff.mp hw
    rw [if_pos hi]
    exact ⟨_, rfl, hn, hs⟩
  · exact ⟨x, hx, hn, hst⟩

theorem fenceInv_spawn {pid : Nat} (h : FenceInv w) (hc : w.launchAt i r) :
    FenceInv { w.setCall i (.spawned r pid) with workers := w.workers ++ [⟨r.attempt, pid, .spawned⟩] } := by
  obtain ⟨current, hs⟩ : ∃ current, w.store = some current := by
    cases hs : w.store with
    | none => exact absurd hc ((h.empty hs).2 i r)
    | some current => exact ⟨current, rfl⟩
  obtain ⟨hatt, hlt⟩ := h.launch i r hc current hs
  have hnone : ∀ j r', ¬ (w.setCall i (.spawned r pid)).launchAt j r' := by
    intro j r' hl
    rcases launching_setCall hl with ⟨-, hr⟩ | ⟨hj, hl⟩
    · cases hr
    · exact hj (h.oneLaunch j i r' r hl hc)
  refine ⟨fun hn => ?_, ?_, ?_, ?_, ?_, ?_, h.once⟩
  · have hn' : w.store = none := hn
    rw [hs] at hn'
    cases hn'
  · rw [List.map_append, List.nodup_append]
    refine ⟨h.distinct, by simp, fun x hx y hy => ?_⟩
    obtain ⟨worker, hw, rfl⟩ := List.mem_map.mp hx
    have hy' : y = r.attempt := by simpa using hy
    have hne := hlt worker hw
    omega
  · intro j k r₁ r₂ h₁
    exact absurd h₁ (hnone j r₁)
  · intro j r' hl
    exact absurd hl (hnone j r')
  · intro worker hw c hcur
    have hcc : some current = some c := hs.symm.trans hcur
    cases hcc
    rcases List.mem_append.mp hw with hw | hw
    · exact h.live worker hw current hs
    · rw [List.mem_singleton.mp hw]
      exact ⟨Nat.le_of_eq hatt, fun _ => hatt⟩
  intro p hp
  obtain ⟨worker, hw, hn, hst⟩ := h.bodies p hp
  obtain ⟨hlt', -⟩ := List.getElem?_eq_some_iff.mp hw
  refine ⟨worker, ?_, hn, hst⟩
  rw [List.getElem?_append_left hlt']
  exact hw

theorem fenceInv_create {first : OperationRecord} (h : FenceInv w) (hn : w.store = none) :
    FenceInv ((w.wrote .create first).addCall (.launching first)) := by
  obtain ⟨hworkers, hcalls⟩ := h.empty hn
  have hlaunch : ∀ {j r}, ((w.wrote .create first).addCall (.launching first)).launchAt j r →
      j = w.calls.length ∧ r = first := by
    intro j r hl
    rcases launching_addCall hl with hl | ⟨hj, hr⟩
    · exact absurd hl (hcalls j r)
    · cases hr
      exact ⟨hj, rfl⟩
  refine ⟨fun hn' => ?_, h.distinct, ?_, ?_, ?_, h.bodies, h.once⟩
  · cases hn'
  · intro j k r₁ r₂ h₁ h₂
    exact (hlaunch h₁).1.trans (hlaunch h₂).1.symm
  · intro j r hl c hc
    cases hc
    obtain ⟨-, rfl⟩ := hlaunch hl
    refine ⟨rfl, fun worker hw => ?_⟩
    have hw' : worker ∈ w.workers := hw
    rw [hworkers] at hw'
    cases hw'
  intro worker hw
  have hw' : worker ∈ w.workers := hw
  rw [hworkers] at hw'
  cases hw'

theorem fenceInv_begin (h : FenceInv w) (hs : w.store = some current) (hatt : r.attempt = current.attempt)
    (hw : w.workers[i]? = some worker) (hst : worker.state = .spawned) :
    FenceInv { (w.wrote writer r).setWorker i worker .executing with bodies := w.bodies ++ [(i, r.attempt)] } := by
  have hfor : worker.launchedFor = r.attempt :=
    ((h.live worker (List.mem_of_getElem? hw) current hs).2 (by simp [hst])).trans hatt.symm
  have h1 : FenceInv ((w.wrote writer r).setWorker i worker .executing) :=
    fenceInv_setWorker (fenceInv_update h hs hatt) hw (by simp) (by simp [hst])
  refine ⟨h1.empty, h1.distinct, h1.oneLaunch, h1.launch, h1.live, fun p hp => ?_, ?_⟩
  · rcases List.mem_append.mp hp with hp | hp
    · exact h1.bodies p hp
    rw [List.mem_singleton.mp hp]
    obtain ⟨hi, -⟩ := List.getElem?_eq_some_iff.mp hw
    refine ⟨{ worker with state := .executing }, ?_, hfor, by simp⟩
    simp [World.setWorker, World.wrote, hi]
  rw [List.map_append, List.nodup_append]
  refine ⟨h.once, by simp, fun x hx y hy => ?_⟩
  have hy' : y = r.attempt := by simpa using hy
  intro heq
  exact worker_of_body h hw hfor hst (by rwa [← hy', ← heq])

/-! ## One step -/

theorem fenceInv_step (h : FenceInv w) (hok : Alone w a) (hs : Stepped hash w a w') : FenceInv w' := by
  cases hs with
  | idle => exact h
  | created hn => exact fenceInv_create h hn
  | asked => exact fenceInv_addCall h (by simp)
  | stale => exact fenceInv_addCall h (by simp)
  | @replaced i c r ha hc hr =>
    subst ha
    obtain ⟨hgone, hcalls⟩ := hok (by simp [publishes_of hc hr])
    obtain ⟨current, hcur, -, hlt, -⟩ := OperationStore.replaceTerminal_ok hr
    exact fenceInv_install h hcur hlt hgone hcalls
  | @recovered i n stamp r ha hc hr =>
    subst ha
    obtain ⟨hgone, hcalls⟩ := hok (by simp [recovers_of hc hr])
    obtain ⟨current, hcur, rfl⟩ := OperationStore.recovered_spec hr
    exact fenceInv_install h hcur (Nat.lt_succ_self _) hgone hcalls
  | dropped => exact fenceInv_setCall h (by simp)
  | spawned hc => exact fenceInv_spawn h hc
  | updated ha hr =>
    obtain ⟨current, hcur, ht, -⟩ := OperationStore.update_ok hr
    exact fenceInv_update h hcur (Update.transform_attempt ht)
  | callUpdated ha hr =>
    obtain ⟨current, hcur, ht, -⟩ := OperationStore.update_ok hr
    exact fenceInv_setCall (fenceInv_update h hcur (Update.transform_attempt ht)) (by simp)
  | workerMoved hw hs hl => exact fenceInv_setWorker h hw hs hl
  | workerUpdated hw hs hl ha hr =>
    obtain ⟨current, hcur, ht, -⟩ := OperationStore.update_ok hr
    exact fenceInv_setWorker (fenceInv_update h hcur (Update.transform_attempt ht)) hw hs fun hg => absurd hg hl
  | bodyBegun hw hl ha hr =>
    obtain ⟨current, hcur, ht, -⟩ := OperationStore.update_ok hr
    exact fenceInv_begin h hcur (Update.transform_attempt ht) hw hl

theorem reporting_live (ha : a.worker = some i) (hw : w.workers[i]? = some worker) (hs : w.step hash clock a = some w')
    : worker.state ≠ .gone := by
  intro hg
  cases a with
  | progress =>
    cases ha
    simp [World.step, World.progress, hw, hg] at hs
  | heartbeat =>
    cases ha
    simp [World.step, World.heartbeat, hw, hg] at hs
  | finish =>
    cases ha
    simp [World.step, World.finish, hw, hg] at hs
  | start | proceed | spawn | recordPid | launchFails | abandon | cancel | begin | exit => cases ha

end

/-- **Superseded workers are fenced**, in every run in which an attempt is installed only when no worker is left and no
launch is to come. -/
theorem superseded_worker_fenced (hash : Hashing) (clock : Clock) {w : World}
    (h : Reachable (lifecycleSystem hash clock) Alone w) : WorkersFenced hash clock w := by
  have hinv : FenceInv w := by
    refine h.invariant ?_ ?_
    · exact ⟨fun _ => ⟨rfl, by simp [World.launchAt, lifecycleSystem, World.init]⟩, .nil,
        by simp [World.launchAt, lifecycleSystem, World.init], by simp [World.launchAt, lifecycleSystem, World.init],
        by simp [lifecycleSystem, World.init], by simp [lifecycleSystem, World.init], .nil⟩
    · intro s a t hi hok hs
      exact fenceInv_step hi hok (World.step_cases hs)
  refine ⟨hinv.once, fun a i worker r w' ha hw hr hlt hs => ?_⟩
  have hlive := (hinv.live worker (List.mem_of_getElem? hw) r hr).2 (reporting_live ha hw hs)
  omega

/-! ## A slow start -/

instance (w : World) (a : Action) : Decidable (Alone w a) :=
  inferInstanceAs (Decidable (_ = true → (∀ worker ∈ w.workers, worker.state = .gone) ∧
    ∀ call ∈ w.calls, call.pending = false))

def retryAfterFailure : List Action :=
  [startWith "first", .spawn 0 11, .recordPid 0, .begin 0 "t1", .progress 0 .quality {} "t2",
    .finish 0 { text := "tests failed" } false "t3", .exit 0, startWith "first", .proceed 1, .spawn 1 12, .begin 1 "t4"]

theorem retry_fenced :
    ∃ w, checkedRun (lifecycleSystem plainHashing pythonClock) Alone World.init retryAfterFailure = some w ∧
      WorkersFenced plainHashing pythonClock w := by
  obtain ⟨w, hw⟩ : ∃ w, checkedRun (lifecycleSystem plainHashing pythonClock) Alone World.init retryAfterFailure = some w :=
    Option.isSome_iff_exists.mp (by decide)
  exact ⟨w, hw, superseded_worker_fenced plainHashing pythonClock (steps_of_checkedRun hw)⟩

def slowStart : List Action :=
  [startWith "first", .spawn 0 11, .recordPid 0,
    .start taskContract (closeoutWith "first") (some "tree") ⟨31000000, some 0⟩, .proceed 1, .spawn 1 12,
    .begin 0 "t1", .begin 1 "t2"]

def twoWorkers : World := (runFrom (lifecycleSystem plainHashing pythonClock) World.init slowStart).get (by decide)

theorem attempt_executed_twice :
    ¬ ∀ w : World, Reachable (lifecycleSystem plainHashing pythonClock) always w →
        WorkersFenced plainHashing pythonClock w := by
  intro hall
  have hr : Reachable (lifecycleSystem plainHashing pythonClock) always twoWorkers :=
    reachable_of_runFrom (Option.some_get _).symm
  have honce := (hall twoWorkers hr).once
  revert honce
  decide

end AgentsRemember.Lifecycle
