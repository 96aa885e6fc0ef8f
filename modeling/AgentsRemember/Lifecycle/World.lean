import AgentsRemember.Lib.System
import AgentsRemember.Lifecycle.Operations

/-!
# Calls and workers on one operation record

A world is the record, the start calls that are under way, the workers that
were launched, and what was written and executed so far. A call or a worker
takes one store operation at a time; anything may happen between two of them.
A worker may end at any point, also by the signal of a cancellation.
-/

namespace AgentsRemember.Lifecycle

open Lib

/-- The writes that go through `update`, with what each brings along. -/
inductive Update
  | start (stamp : String) (process : Nat)
  | progress (phase : OperationPhase) (evidence : Evidence) (stamp : String)
  | heartbeat (stamp : String) (command : Option String)
  | finish (result : OperationResult) (ok : Bool) (stamp : String)
  | pid (launched : OperationRecord) (process : Nat)
  | launchFailure (error stamp : String)
  | cancel (kind : OperationKind) (stamp : String)

def Update.transform : Update → OperationRecord → Except String OperationRecord
  | start stamp process, record => .ok (running stamp process record)
  | progress phase evidence stamp, record => .ok (advance phase evidence stamp record)
  | heartbeat stamp command, record => .ok (beat stamp command record)
  | finish result ok stamp, record => .ok (finished result ok stamp record)
  | pid launched process, record => .ok (recordPid launched process record)
  | launchFailure error stamp, record => .ok (launchFailed error stamp record)
  | cancel kind stamp, record => requestCancel kind stamp record

inductive Writer
  | create | replacement | recovery
  | update (u : Update)

structure Write where
  writer : Writer
  before : OperationStore
  after : OperationRecord

inductive StartCall
  | replacing (candidate : OperationRecord)
  | recovering (expectedAttempt : Nat) (stamp : String)
  | launching (record : OperationRecord)
  | spawned (record : OperationRecord) (pid : Nat)
  | done

/-- `failing`: the body raised, `fail` is to come. `closing`: only the heartbeat thread may still write. -/
inductive WorkerState
  | spawned | executing | failing | closing | gone
  deriving DecidableEq

structure Worker where
  launchedFor : Nat
  pid : Nat
  state : WorkerState

structure World where
  store : OperationStore
  calls : List StartCall
  workers : List Worker
  writes : List Write
  bodies : List (Nat × Nat)

inductive Action
  | start (contract : OperationContract) (input : OperationInput) (tree : Option String) (now : Stamp)
  | proceed (call : Nat)
  | spawn (call pid : Nat)
  | recordPid (call : Nat)
  | launchFails (call : Nat) (error stamp : String)
  | abandon (call : Nat)
  | cancel (kind : OperationKind) (stamp : String)
  | begin (worker : Nat) (stamp : String)
  | progress (worker : Nat) (phase : OperationPhase) (evidence : Evidence) (stamp : String)
  | heartbeat (worker : Nat) (stamp : String) (command : Option String)
  | finish (worker : Nat) (result : OperationResult) (ok : Bool) (stamp : String)
  | exit (worker : Nat)

namespace World

def init : World := ⟨none, [], [], [], []⟩

def wrote (w : World) (writer : Writer) (after : OperationRecord) : World :=
  { w with store := some after, writes := w.writes ++ [⟨writer, w.store, after⟩] }

def addCall (w : World) (call : StartCall) : World := { w with calls := w.calls ++ [call] }

def setCall (w : World) (i : Nat) (call : StartCall) : World := { w with calls := w.calls.set i call }

def setWorker (w : World) (i : Nat) (worker : Worker) (state : WorkerState) : World :=
  { w with workers := w.workers.set i { worker with state := state } }

/-- One `update` of the record, and the world after it. -/
def update (w : World) (u : Update) : Except String World :=
  match w.store.update u.transform with
  | .error e => .error e
  | .ok after => .ok (w.wrote (.update u) after)

def start (hash : Hashing) (clock : Clock) (w : World) (contract : OperationContract) (input : OperationInput)
    (tree : Option String) (now : Stamp) : Option World :=
  match validateInputIdentity contract input with
  | .error _ => none
  | .ok _ =>
    let stamp := clock.format now
    let candidate := queuedRecord hash contract input tree stamp
    let current := w.store.create candidate
    match afterCreate clock.parse candidate current.1 current.2 now.utc with
    | .error _ => none
    | .ok .observe => some w
    | .ok .launch => some ((w.wrote .create candidate).addCall (.launching current.1))
    | .ok .replace => some (w.addCall (.replacing candidate))
    | .ok .recover => some (w.addCall (.recovering current.1.attempt stamp))

def proceed (w : World) (i : Nat) : Option World :=
  match w.calls[i]? with
  | some (.replacing candidate) =>
    match w.store.replaceTerminal candidate with
    | .ok record => some ((w.wrote .replacement record).setCall i (.launching record))
    | .error _ => some (w.setCall i .done)
  | some (.recovering expected stamp) =>
    match w.store.replaceForRecovery (requeued stamp) expected with
    | .ok (record, true) => some ((w.wrote .recovery record).setCall i (.launching record))
    | .ok (_, false) => some (w.setCall i .done)
    | .error _ => some (w.setCall i .done)
  | _ => none

def spawn (w : World) (i pid : Nat) : Option World :=
  match w.calls[i]? with
  | some (.launching record) =>
    some { w.setCall i (.spawned record pid) with workers := w.workers ++ [⟨record.attempt, pid, .spawned⟩] }
  | _ => none

def recordPid (w : World) (i : Nat) : Option World :=
  match w.calls[i]? with
  | some (.spawned record pid) =>
    match w.update (.pid record pid) with
    | .ok w => some (w.setCall i .done)
    | .error _ => none
  | _ => none

def failLaunch (w : World) (i : Nat) (error stamp : String) : World :=
  match w.update (.launchFailure error stamp) with
  | .ok w => w.setCall i .done
  | .error _ => w.setCall i .done

/-- The launcher raised, before or after it had its process. -/
def launchFails (w : World) (i : Nat) (error stamp : String) : Option World :=
  match w.calls[i]? with
  | some (.launching _) => some (w.failLaunch i error stamp)
  | some (.spawned _ _) => some (w.failLaunch i error stamp)
  | _ => none

/-- `run_worker` up to its body. The record it reads first is there for good, so that read is no step of its own. -/
def begin (w : World) (i : Nat) (stamp : String) : Option World :=
  match w.workers[i]? with
  | some worker =>
    if worker.state ≠ .spawned then none
    else match w.store.update (Update.start stamp worker.pid).transform with
      | .error _ => some (w.setWorker i worker .gone)
      | .ok after =>
        let w := w.wrote (.update (.start stamp worker.pid)) after
        if after.status = .running then
          some { w.setWorker i worker .executing with bodies := w.bodies ++ [(i, after.attempt)] }
        else some (w.setWorker i worker .gone)
  | none => none

def progress (w : World) (i : Nat) (phase : OperationPhase) (evidence : Evidence) (stamp : String) : Option World :=
  match w.workers[i]? with
  | some worker =>
    if worker.state ≠ .executing then none
    else match w.store.update (Update.progress phase evidence stamp).transform with
      | .error _ => some (w.setWorker i worker .failing)
      | .ok after =>
        let w := w.wrote (.update (.progress phase evidence stamp)) after
        some (w.setWorker i worker (if after.status = .cancelled then .closing else .executing))
  | none => none

def heartbeat (w : World) (i : Nat) (stamp : String) (command : Option String) : Option World :=
  match w.workers[i]? with
  | some worker =>
    if worker.state = .spawned ∨ worker.state = .gone then none
    else (w.update (.heartbeat stamp command)).toOption
  | none => none

def finish (w : World) (i : Nat) (result : OperationResult) (ok : Bool) (stamp : String) : Option World :=
  match w.workers[i]? with
  | some worker =>
    match worker.state, w.update (.finish result ok stamp) with
    | .executing, .ok w => some (w.setWorker i worker .closing)
    | .executing, .error _ => some (w.setWorker i worker .failing)
    | .failing, .ok w' => if ok then none else some (w'.setWorker i worker .closing)
    | .failing, .error _ => if ok then none else some (w.setWorker i worker .closing)
    | _, _ => none
  | none => none

def step (hash : Hashing) (clock : Clock) (w : World) : Action → Option World
  | .start contract input tree now => w.start hash clock contract input tree now
  | .proceed call => w.proceed call
  | .spawn call pid => w.spawn call pid
  | .recordPid call => w.recordPid call
  | .launchFails call error stamp => w.launchFails call error stamp
  | .abandon call => some (w.setCall call .done)
  | .cancel kind stamp => (w.update (.cancel kind stamp)).toOption
  | .begin worker stamp => w.begin worker stamp
  | .progress worker phase evidence stamp => w.progress worker phase evidence stamp
  | .heartbeat worker stamp command => w.heartbeat worker stamp command
  | .finish worker result ok stamp => w.finish worker result ok stamp
  | .exit worker => (w.workers[worker]?).map fun wk => w.setWorker worker wk .gone

end World

def lifecycleSystem (hash : Hashing) (clock : Clock) : System World Action := ⟨World.init, World.step hash clock⟩

section
variable {u : Update} {r r' : OperationRecord}

theorem Update.transform_attempt (h : u.transform r = .ok r') : r'.attempt = r.attempt := by
  cases u with
  | start stamp process =>
    cases h
    unfold running
    split <;> rfl
  | progress phase evidence stamp =>
    cases h
    unfold advance
    split <;> rfl
  | heartbeat stamp command =>
    cases h
    unfold beat
    split <;> rfl
  | finish result ok stamp =>
    cases h
    unfold finished
    split
    · rfl
    · split <;> rfl
  | pid launched process =>
    cases h
    unfold Lifecycle.recordPid
    split <;> rfl
  | launchFailure error stamp =>
    cases h
    rfl
  | cancel kind stamp =>
    simp only [transform, requestCancel] at h
    split at h
    · cases h
      rfl
    split at h
    · cases h
    · cases h
      rfl

theorem Update.transform_cancelled (h : u.transform r = .ok r') (hs : r'.status = .cancelled) :
    r'.irreversibleBoundaryEntered = r.irreversibleBoundaryEntered := by
  cases u with
  | start stamp process =>
    cases h
    unfold running
    split <;> rfl
  | progress phase evidence stamp =>
    cases h
    unfold advance at hs ⊢
    split
    · rfl
    rename_i hc
    rw [if_neg hc] at hs
    cases hs
  | heartbeat stamp command =>
    cases h
    unfold beat
    split <;> rfl
  | finish result ok stamp =>
    cases h
    unfold finished
    split
    · rfl
    · split <;> rfl
  | pid launched process =>
    cases h
    unfold Lifecycle.recordPid
    split <;> rfl
  | launchFailure error stamp =>
    cases h
    rfl
  | cancel kind stamp =>
    simp only [transform, requestCancel] at h
    split at h
    · cases h
      rfl
    split at h
    · cases h
    · cases h
      rfl

end

/-! ## What a step can do -/

def World.asks (w : World) : Action → Option Update
  | .recordPid i =>
    match w.calls[i]? with
    | some (.spawned record pid) => some (.pid record pid)
    | _ => none
  | .launchFails _ error stamp => some (.launchFailure error stamp)
  | .cancel kind stamp => some (.cancel kind stamp)
  | .begin i stamp => (w.workers[i]?).map fun worker => .start stamp worker.pid
  | .progress _ phase evidence stamp => some (.progress phase evidence stamp)
  | .heartbeat _ stamp command => some (.heartbeat stamp command)
  | .finish _ result ok stamp => some (.finish result ok stamp)
  | _ => none

inductive Stepped (hash : Hashing) (w : World) (a : Action) : World → Prop
  | idle : Stepped hash w a w
  | created {contract : OperationContract} {input : OperationInput} {tree : Option String} {stamp : String}
      (h : w.store = none) : Stepped hash w a ((w.wrote .create (queuedRecord hash contract input tree stamp)).addCall
        (.launching (queuedRecord hash contract input tree stamp)))
  | asked {contract : OperationContract} {input : OperationInput} {tree : Option String} {stamp : String} :
      Stepped hash w a (w.addCall (.replacing (queuedRecord hash contract input tree stamp)))
  | stale {n : Nat} {stamp : String} : Stepped hash w a (w.addCall (.recovering n stamp))
  | replaced {i : Nat} {c r : OperationRecord} (ha : a = .proceed i) (hc : w.calls[i]? = some (.replacing c))
      (h : w.store.replaceTerminal c = .ok r) : Stepped hash w a ((w.wrote .replacement r).setCall i (.launching r))
  | recovered {i n : Nat} {stamp : String} {r : OperationRecord} (ha : a = .proceed i)
      (hc : w.calls[i]? = some (.recovering n stamp))
      (h : w.store.replaceForRecovery (requeued stamp) n = .ok (r, true)) :
      Stepped hash w a ((w.wrote .recovery r).setCall i (.launching r))
  | dropped {i : Nat} : Stepped hash w a (w.setCall i .done)
  | spawned {i pid : Nat} {r : OperationRecord} (hc : w.calls[i]? = some (.launching r)) :
      Stepped hash w a { w.setCall i (.spawned r pid) with workers := w.workers ++ [⟨r.attempt, pid, .spawned⟩] }
  | updated {u : Update} {r : OperationRecord} (ha : w.asks a = some u) (h : w.store.update u.transform = .ok r) :
      Stepped hash w a (w.wrote (.update u) r)
  | callUpdated {i : Nat} {u : Update} {r : OperationRecord} (ha : w.asks a = some u)
      (h : w.store.update u.transform = .ok r) : Stepped hash w a ((w.wrote (.update u) r).setCall i .done)
  | workerMoved {i : Nat} {worker : Worker} {s : WorkerState} (hw : w.workers[i]? = some worker)
      (hs : s ≠ .spawned) (hl : worker.state = .gone → s = .gone) : Stepped hash w a (w.setWorker i worker s)
  | workerUpdated {i : Nat} {worker : Worker} {s : WorkerState} {u : Update} {r : OperationRecord}
      (hw : w.workers[i]? = some worker) (hs : s ≠ .spawned) (hl : worker.state ≠ .gone) (ha : w.asks a = some u)
      (h : w.store.update u.transform = .ok r) : Stepped hash w a ((w.wrote (.update u) r).setWorker i worker s)
  | bodyBegun {i : Nat} {worker : Worker} {u : Update} {r : OperationRecord} (hw : w.workers[i]? = some worker)
      (hl : worker.state = .spawned) (ha : w.asks a = some u) (h : w.store.update u.transform = .ok r) :
      Stepped hash w a
        { (w.wrote (.update u) r).setWorker i worker .executing with bodies := w.bodies ++ [(i, r.attempt)] }

variable {hash : Hashing} {clock : Clock} {w w' : World} {a : Action}

theorem World.update_ok {u : Update} (h : w.update u = .ok w') :
    ∃ r, w.store.update u.transform = .ok r ∧ w' = w.wrote (.update u) r := by
  unfold update at h
  split at h
  · cases h
  rename_i r hr
  cases h
  exact ⟨r, hr, rfl⟩

theorem toOption_ok {α : Type} {x : Except String α} {v : α} (h : x.toOption = some v) : x = .ok v := by
  cases x with
  | error e => cases h
  | ok v' =>
    cases h
    rfl

theorem afterCreate_launch {parse : String → Option Stamp} {candidate current : OperationRecord} {created : Bool}
    {now : Int} (h : afterCreate parse candidate current created now = .ok .launch) : created = true := by
  unfold afterCreate at h
  split at h
  · split at h
    · cases h
    · split at h <;> cases h
  split at h
  · assumption
  · obtain ⟨recover, -, h⟩ := bind_ok h
    cases recover <;> cases h

theorem OperationStore.create_new {store : OperationStore} {record : OperationRecord} (h : (store.create record).2 = true) :
    store = none ∧ (store.create record).1 = record := by
  cases store with
  | none => exact ⟨rfl, rfl⟩
  | some current => cases h

theorem World.start_cases {contract : OperationContract} {input : OperationInput} {tree : Option String} {now : Stamp}
    (h : w.start hash clock contract input tree now = some w') : Stepped hash w a w' := by
  unfold start at h
  split at h
  · cases h
  simp only at h
  split at h
  · cases h
  · cases h
    exact .idle
  · rename_i hl
    cases h
    obtain ⟨hn, hc⟩ := OperationStore.create_new (afterCreate_launch hl)
    rw [hc]
    exact .created hn
  · cases h
    exact .asked
  · cases h
    exact .stale

variable {i : Nat} {stamp : String}

theorem World.proceed_cases (h : w.proceed i = some w') : Stepped hash w (.proceed i) w' := by
  unfold proceed at h
  split at h
  · rename_i c hc
    split at h
    · rename_i r hr
      cases h
      exact .replaced rfl hc hr
    · cases h
      exact .dropped
  · rename_i n stamp hc
    split at h
    · rename_i r hr
      cases h
      exact .recovered rfl hc hr
    · cases h
      exact .dropped
    · cases h
      exact .dropped
  · cases h

theorem World.begin_cases (h : w.begin i stamp = some w') : Stepped hash w (.begin i stamp) w' := by
  unfold begin at h
  split at h
  · rename_i worker hw
    split at h
    · cases h
    rename_i hst
    have hspawned : worker.state = .spawned := Classical.not_not.mp hst
    have hask : w.asks (.begin i stamp) = some (.start stamp worker.pid) := by simp [asks, hw]
    split at h
    · cases h
      exact .workerMoved hw (by simp) fun _ => rfl
    rename_i r hr
    simp only at h
    split at h
    · cases h
      exact .bodyBegun hw hspawned hask hr
    · cases h
      exact .workerUpdated hw (by simp) (by simp [hspawned]) hask hr
  · cases h

theorem World.progress_cases {phase : OperationPhase} {evidence : Evidence}
    (h : w.progress i phase evidence stamp = some w') : Stepped hash w (.progress i phase evidence stamp) w' := by
  unfold progress at h
  split at h
  · rename_i worker hw
    split at h
    · cases h
    rename_i hst
    have hexec : worker.state = .executing := Classical.not_not.mp hst
    split at h
    · cases h
      exact .workerMoved hw (by simp) (by simp [hexec])
    rename_i r hr
    cases h
    refine .workerUpdated hw ?_ (by simp [hexec]) rfl hr
    split <;> simp
  · cases h

theorem World.heartbeat_cases {command : Option String} (h : w.heartbeat i stamp command = some w') :
    Stepped hash w (.heartbeat i stamp command) w' := by
  unfold heartbeat at h
  split at h
  · split at h
    · cases h
    · obtain ⟨r, hr, rfl⟩ := World.update_ok (toOption_ok h)
      exact .updated rfl hr
  · cases h

theorem World.finish_cases {result : OperationResult} {ok : Bool} (h : w.finish i result ok stamp = some w') :
    Stepped hash w (.finish i result ok stamp) w' := by
  unfold finish at h
  split at h
  · rename_i worker hw
    split at h
    · rename_i hst hu
      cases h
      obtain ⟨r, hr, rfl⟩ := World.update_ok hu
      exact .workerUpdated hw (by simp) (by simp [hst]) rfl hr
    · rename_i hst hu
      cases h
      exact .workerMoved hw (by simp) (by simp [hst])
    · rename_i hst hu
      split at h
      · cases h
      cases h
      obtain ⟨r, hr, rfl⟩ := World.update_ok hu
      exact .workerUpdated hw (by simp) (by simp [hst]) rfl hr
    · rename_i hst hu
      split at h
      · cases h
      · cases h
        exact .workerMoved hw (by simp) (by simp [hst])
    · cases h
  · cases h

theorem World.recordPid_cases (h : w.recordPid i = some w') : Stepped hash w (.recordPid i) w' := by
  unfold recordPid at h
  split at h
  · rename_i record pid hc
    split at h
    · rename_i hu
      cases h
      obtain ⟨r, hr, rfl⟩ := World.update_ok hu
      exact .callUpdated (by simp [asks, hc]) hr
    · cases h
  · cases h

theorem World.launchFails_cases {error : String} (h : w.launchFails i error stamp = some w') :
    Stepped hash w (.launchFails i error stamp) w' := by
  have hfail : Stepped hash w (.launchFails i error stamp) (w.failLaunch i error stamp) := by
    unfold failLaunch
    split
    · rename_i hu
      obtain ⟨r, hr, rfl⟩ := World.update_ok hu
      exact .callUpdated rfl hr
    · exact .dropped
  unfold launchFails at h
  split at h
  · cases h
    exact hfail
  · cases h
    exact hfail
  · cases h

theorem World.step_cases (h : w.step hash clock a = some w') : Stepped hash w a w' := by
  cases a with
  | start => exact World.start_cases h
  | proceed => exact World.proceed_cases h
  | spawn i pid =>
    simp only [step, spawn] at h
    split at h
    · rename_i r hc
      cases h
      exact .spawned hc
    · cases h
  | recordPid => exact World.recordPid_cases h
  | launchFails => exact World.launchFails_cases h
  | abandon =>
    cases h
    exact .dropped
  | cancel =>
    obtain ⟨r, hr, rfl⟩ := World.update_ok (toOption_ok h)
    exact .updated rfl hr
  | begin => exact World.begin_cases h
  | progress => exact World.progress_cases h
  | heartbeat => exact World.heartbeat_cases h
  | finish => exact World.finish_cases h
  | exit =>
    obtain ⟨worker, hw, rfl⟩ := Option.map_eq_some_iff.mp h
    exact .workerMoved hw (by simp) fun _ => rfl

inductive Writes (hash : Hashing) (w : World) (a : Action) : Writer → OperationRecord → Prop
  | create {contract : OperationContract} {input : OperationInput} {tree : Option String} {stamp : String}
      (h : w.store = none) : Writes hash w a .create (queuedRecord hash contract input tree stamp)
  | replacement {i : Nat} {c r : OperationRecord} (ha : a = .proceed i) (hc : w.calls[i]? = some (.replacing c))
      (h : w.store.replaceTerminal c = .ok r) : Writes hash w a .replacement r
  | recovery {n : Nat} {stamp : String} {r : OperationRecord}
      (h : w.store.replaceForRecovery (requeued stamp) n = .ok (r, true)) : Writes hash w a .recovery r
  | update {u : Update} {r : OperationRecord} (ha : w.asks a = some u) (h : w.store.update u.transform = .ok r) :
      Writes hash w a (.update u) r

theorem Stepped.wrote (h : Stepped hash w a w') :
    (w'.store = w.store ∧ w'.writes = w.writes) ∨
    ∃ writer r, Writes hash w a writer r ∧ w'.store = some r ∧ w'.writes = w.writes ++ [⟨writer, w.store, r⟩] := by
  cases h with
  | idle | asked | stale | dropped | spawned | workerMoved => exact Or.inl ⟨rfl, rfl⟩
  | created hn => exact Or.inr ⟨_, _, .create hn, rfl, rfl⟩
  | replaced ha hc h => exact Or.inr ⟨_, _, .replacement ha hc h, rfl, rfl⟩
  | recovered ha hc h => exact Or.inr ⟨_, _, .recovery h, rfl, rfl⟩
  | updated ha h => exact Or.inr ⟨_, _, .update ha h, rfl, rfl⟩
  | callUpdated ha h => exact Or.inr ⟨_, _, .update ha h, rfl, rfl⟩
  | workerUpdated _ _ _ ha h => exact Or.inr ⟨_, _, .update ha h, rfl, rfl⟩
  | bodyBegun _ _ ha h => exact Or.inr ⟨_, _, .update ha h, rfl, rfl⟩

end AgentsRemember.Lifecycle
