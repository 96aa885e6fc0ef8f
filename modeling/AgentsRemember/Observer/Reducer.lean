import AgentsRemember.Logs.Events

/-!
# The lifecycle reducer

`observer/reducer.py` folds the event log of one lifecycle. What the fold makes
of the events is the written projection; the clock then turns a lifecycle that
has gone quiet into a paused or an abandoned one. No projection stands for a
fold that raises.
-/

namespace AgentsRemember.Observer

open Lib Lib.JsonText Logs

/-! ## The vocabulary -/

inductive State
  | running
  | paused
  | blocked
  | awaitingDeveloper
  | completed
  | abandoned
  deriving DecidableEq

inductive Phase
  | request
  | trustCheckpoint
  | reframeResearch
  | decide
  | build
  | close
  deriving DecidableEq

def State.text : State → String
  | .running => "running"
  | .paused => "paused"
  | .blocked => "blocked"
  | .awaitingDeveloper => "awaiting-developer"
  | .completed => "completed"
  | .abandoned => "abandoned"

def Phase.text : Phase → String
  | .request => "request"
  | .trustCheckpoint => "trust-checkpoint"
  | .reframeResearch => "reframe-research"
  | .decide => "decide"
  | .build => "build"
  | .close => "close"

def STATES : List State := [.running, .paused, .blocked, .awaitingDeveloper, .completed, .abandoned]

def PHASES : List Phase := [.request, .trustCheckpoint, .reframeResearch, .decide, .build, .close]

def State.isTerminal : State → Bool
  | .completed | .abandoned => true
  | _ => false

def stateOf (s : String) : Option State := STATES.find? fun state => state.text = s

def coercePhase (v : Value) : Option Phase := (asText v).bind fun s => PHASES.find? fun phase => phase.text = s

def coerceEndOutcome (v : Option Value) : State :=
  match v.bind asText with
  | some "completed" => .completed
  | _ => .abandoned

theorem coercePhase_text (p : Phase) : coercePhase (text p.text) = some p := by
  cases p <;> decide

def truth : Value → Bool
  | .scalar .null => false
  | .scalar (.bool b) => b
  | .scalar (.number n) => (n.token.toList.takeWhile fun c => c ≠ 'e' && c ≠ 'E').any fun c => c.isDigit && c ≠ '0'
  | .scalar (.str s) => s ≠ ""
  | .arr items => !items.isEmpty
  | .obj fields => !fields.isEmpty

/-! ## The fold -/

structure LifecycleProjection where
  id : String
  state : State
  phase : Phase
  fleeting : Bool
  enclosure : Option String
  repoId : Option String
  scope : Option Value
  startedAt : String
  lastEventTs : String
  stateEnteredAt : String
  staleSeconds : Option Int
  inferred : Bool
  ask : Option Value

def INITIAL_PHASE : Phase := .request

def seedFromStarted (e : Event) : Option LifecycleProjection :=
  (((field e.data "phase").map coercePhase).getD (some INITIAL_PHASE)).map fun phase =>
    { id := e.lifecycleId.getD "", state := .running, phase := phase,
      fleeting := ((field e.data "fleeting").map truth).getD true, enclosure := e.enclosure, repoId := e.repoId, scope := none,
      startedAt := e.ts, lastEventTs := e.ts, stateEnteredAt := e.ts, staleSeconds := none, inferred := false, ask := none }

/-- `None` stands for a missing value. -/
def given : Option Value → Option Value
  | some (.scalar .null) => none
  | v => v

def promotedUpdates (p : LifecycleProjection) (e : Event) : LifecycleProjection :=
  { p with fleeting := false, scope := field e.data "scope", enclosure := e.enclosure.or p.enclosure, repoId := e.repoId.or p.repoId }

def applyKind (p : LifecycleProjection) (e : Event) : Option LifecycleProjection :=
  match e.kind with
  | "lifecycle.phase-changed" => (((field e.data "phase").map coercePhase).getD (some p.phase)).map fun phase => { p with phase }
  | "lifecycle.blocked" => some { p with state := .blocked, ask := field e.data "ask" }
  | "lifecycle.awaiting-developer" =>
    some { p with state := .awaitingDeveloper, ask := (given (field e.data "summary")).map fun v => .obj [("summary", v)] }
  | "lifecycle.resumed" => some { p with state := .running, ask := none }
  | "lifecycle.paused" => some { p with state := .paused }
  | "lifecycle.promoted" => some (promotedUpdates p e)
  | "lifecycle.ended" => some { p with state := coerceEndOutcome (field e.data "outcome") }
  | _ => some p

def correctionKind : String := "correction.recorded"

def correctionOf (e : Event) : Option (String × State) :=
  if e.kind = correctionKind then
    match (field e.data "corrects").bind asText, ((field e.data "state").bind asText).bind stateOf with
    | some corrected, some state => some (corrected, state)
    | _, _ => none
  else none

def indexCorrections (events : List Event) : Dict String State :=
  (events.filterMap correctionOf).foldl (fun d c => d.set c.1 c.2) .empty

def foldEvent (corrections : Dict String State) (p : LifecycleProjection) (e : Event) : Option LifecycleProjection :=
  if e.kind = correctionKind then some p
  else (applyKind p e).map fun q =>
    let r := { q with state := (corrections.get? e.id).getD q.state }
    if r.state = p.state then r else { r with stateEnteredAt := e.ts }

def projectWritten : List Event → Option LifecycleProjection
  | [] => none
  | started :: events => do
    let seeded ← seedFromStarted started
    let folded ← events.foldlM (foldEvent (indexCorrections (started :: events))) seeded
    some { folded with lastEventTs := (((started :: events).getLast?).map (·.ts)).getD "" }

/-! ## What the clock infers -/

def seconds (n : Nat) : Int := n * 1000000

def TTL_SECONDS : Int := seconds 3600

def STALE_AFTER_SECONDS : Int := seconds 180

def ageSeconds (ts : String) (now : Int) : Option Int := ageMicros fromisoformat ts now

def projectInferred (p : LifecycleProjection) (now : Int) : LifecycleProjection :=
  let p := { p with staleSeconds := ageSeconds p.lastEventTs now }
  match p.staleSeconds with
  | none => p
  | some age =>
    if p.state.isTerminal then p
    else if p.fleeting ∧ TTL_SECONDS < age then { p with state := .abandoned, inferred := true }
    else if p.state = .running ∧ STALE_AFTER_SECONDS < age then { p with state := .paused, inferred := true }
    else p

def projectLifecycle (events : List Event) (now : Int) : Option LifecycleProjection :=
  (projectWritten events).map fun p => projectInferred p now

/-! ## The fold keeps the lifecycle's id -/

variable {e : Event} {p q : LifecycleProjection} {corrections : Dict String State}

theorem seedFromStarted_id (h : seedFromStarted e = some p) : p.id = e.lifecycleId.getD "" := by
  obtain ⟨phase, -, rfl⟩ := Option.map_eq_some_iff.mp h
  rfl

theorem applyKind_id (h : applyKind p e = some q) : q.id = p.id := by
  unfold applyKind at h
  split at h
  · obtain ⟨phase, -, rfl⟩ := Option.map_eq_some_iff.mp h
    rfl
  all_goals
    obtain rfl := Option.some.inj h
    rfl

theorem foldEvent_id (h : foldEvent corrections p e = some q) : q.id = p.id := by
  unfold foldEvent at h
  by_cases hk : e.kind = correctionKind
  · rw [if_pos hk] at h
    rw [Option.some.inj h]
  rw [if_neg hk] at h
  obtain ⟨r, hr, hq⟩ := Option.map_eq_some_iff.mp h
  rw [← applyKind_id hr, ← hq]
  dsimp only
  split <;> rfl

theorem foldEvents_id : ∀ {events : List Event} {p q : LifecycleProjection},
    events.foldlM (foldEvent corrections) p = some q → q.id = p.id
  | [], p, q, h => by rw [Option.some.inj h]
  | e :: events, p, q, h => by
    rw [List.foldlM_cons] at h
    obtain ⟨r, hr, h⟩ := Option.bind_eq_some_iff.mp h
    rw [foldEvents_id h, foldEvent_id hr]

theorem projectWritten_id {events : List Event} (h : projectWritten (e :: events) = some p) :
    p.id = e.lifecycleId.getD "" := by
  obtain ⟨seeded, hs, h⟩ := Option.bind_eq_some_iff.mp h
  obtain ⟨folded, hf, h⟩ := Option.bind_eq_some_iff.mp h
  rw [← seedFromStarted_id hs, ← foldEvents_id hf, ← Option.some.inj h]

theorem projectInferred_id (p : LifecycleProjection) (now : Int) : (projectInferred p now).id = p.id := by
  unfold projectInferred
  dsimp only
  split
  · rfl
  split
  · rfl
  split
  · rfl
  · split <;> rfl

/-! ## The workspace projection

`project_workspace` assembles the tree of the dashboard from the event logs, the
worktree enclosures and the providers. A lifecycle comes from a log that is
still current, or is made for an enclosure that no such log stands for. The
gates, actions and analytics that it also attaches change no key.
-/

open Lib Logs

structure EnclosureNode where
  enclosure : String
  taskName : String
  repoName : String
  lifecycleId : String
  closeoutStatus : String
  integrationStatus : String
  cleanup : String

structure ProviderNode where
  id : String
  state : String

structure WorkspaceProjection where
  lifecycles : List LifecycleProjection
  enclosures : List EnclosureNode
  providers : List ProviderNode

/-! ## Lifecycles with events -/

def missingEnclosureIsStillMaterializing (p : LifecycleProjection) : Bool :=
  !p.state.isTerminal && !p.inferred && p.staleSeconds.any fun age => age ≤ STALE_AFTER_SECONDS

def byEnclosure (enclosures : List EnclosureNode) (key : String) : Option EnclosureNode :=
  enclosures.reverse.find? fun e => e.enclosure = key

def eventBackedLifecycleIsCurrent (enclosures : List EnclosureNode) (p : LifecycleProjection) : Bool :=
  if p.fleeting then true
  else if truthy p.enclosure then
    match byEnclosure enclosures (p.enclosure.getD "") with
    | none => missingEnclosureIsStillMaterializing p
    | some e => e.lifecycleId = "" || e.lifecycleId = p.id
  else missingEnclosureIsStillMaterializing p

def abandonedAnchor (enclosures : List EnclosureNode) (p : LifecycleProjection) : Bool :=
  enclosures.any fun e => e.cleanup = "abandoned" && p.enclosure = some e.enclosure

def terminalizeAbandonedAnchor (enclosures : List EnclosureNode) (p : LifecycleProjection) : LifecycleProjection :=
  if !p.fleeting && abandonedAnchor enclosures p && !p.state.isTerminal then { p with state := .abandoned } else p

/-! ## Lifecycles of enclosures -/

def persistentId (e : EnclosureNode) : String := if e.lifecycleId ≠ "" then e.lifecycleId else e.repoName ++ "/" ++ e.taskName

def persistentFromEnclosure (e : EnclosureNode) : LifecycleProjection where
  id := persistentId e
  state := .paused
  phase := if e.closeoutStatus = "completed" ∨ e.integrationStatus = "completed" then .close else .build
  fleeting := false
  enclosure := some e.enclosure
  repoId := some e.repoName
  scope := none
  startedAt := ""
  lastEventTs := ""
  stateEnteredAt := ""
  staleSeconds := none
  inferred := true
  ask := none

def isUnrepresented (eventBacked : List LifecycleProjection) (e : EnclosureNode) : Bool :=
  !(e.lifecycleId ≠ "" && eventBacked.any fun p => p.id = e.lifecycleId) &&
    !(eventBacked.any fun p => truthy p.enclosure && p.enclosure = some e.enclosure) &&
      !(e.cleanup = "abandoned" || e.cleanup = "reopened")

def persistentLifecycles (enclosures : List EnclosureNode) (eventBacked : List LifecycleProjection) : List LifecycleProjection :=
  (enclosures.filter (isUnrepresented eventBacked)).map persistentFromEnclosure

def projectWorkspace (logs : List (List Event)) (enclosures : List EnclosureNode) (providers : List ProviderNode) (now : Int) :
    Option WorkspaceProjection := do
  let lifecycles ← (logs.filter fun log => !log.isEmpty).mapM fun log => projectLifecycle log now
  let current := lifecycles.filter (eventBackedLifecycleIsCurrent enclosures)
  let terminalized := current.map (terminalizeAbandonedAnchor enclosures)
  some ⟨terminalized ++ persistentLifecycles enclosures terminalized, enclosures, providers⟩

end AgentsRemember.Observer
