import Mathlib.Logic.Function.Basic
import AgentsRemember.Lib.System

/-!
# The retained inputs of a projection

`serving/projections/projection_inputs.py`: the snapshots that one tick refreshes
after another, and which refresh asks for which. The readers are parameters: what
each returns from the files it reads, without the ages of its nodes, which only
follow the clock. A reader that raises stops the tick where it stands.
-/

namespace AgentsRemember.Projection

inductive ProjectionDomain
  | tasks
  | lifecycles
  | workspace
  | drift
  | providers
  | startProgress
  | toolReports
  deriving DecidableEq

inductive ProjectionRefreshKind
  | full
  | change
  | heartbeat
  deriving DecidableEq

structure ProjectionRefresh where
  kind : ProjectionRefreshKind
  domains : List ProjectionDomain

def ProjectionRefresh.isHeartbeat (r : ProjectionRefresh) : Bool := r.kind = .heartbeat

def ProjectionRefresh.affects (r : ProjectionRefresh) (d : ProjectionDomain) : Bool := r.kind = .full || r.domains.contains d

def ALL_PROJECTION_DOMAINS : List ProjectionDomain :=
  [.tasks, .lifecycles, .workspace, .drift, .providers, .startProgress, .toolReports]

def fullRefresh : ProjectionRefresh := ⟨.full, ALL_PROJECTION_DOMAINS⟩

def changeRefresh (domains : List ProjectionDomain) : ProjectionRefresh := ⟨.change, domains⟩

def heartbeatRefresh : ProjectionRefresh := ⟨.heartbeat, []⟩

/-- What each watched root holds, and everything that lies outside of them: worktrees, landing state, the clock. -/
structure Files (C : Type) where
  root : ProjectionDomain → C
  elsewhere : C

def Files.set {C : Type} (f : Files C) (d : ProjectionDomain) (c : C) : Files C := { f with root := Function.update f.root d c }

inductive Slot
  | contracts
  | enclosures
  | taskDocuments
  | series
  | lifecycleLogs
  | setupSummaries
  | providers
  | setupProgress
  | engineProcessFacts
  | driftSnapshots
  | gates
  | agentPickups
  | expectationRows
  | attentionDismissals
  | engineStartProgress
  | toolReports
  deriving DecidableEq

structure Readers (C V G : Type) where
  contracts : C → V
  enclosures : C → C → V → V
  taskDocuments : C → V → V
  series : C → V
  pruneLogs : C → V → C
  lifecycleLogs : C → V
  admittedGroups : V → V → C → G
  activeGroups : V → V → C → G
  setupSummaries : C → V
  providers : C → C → G → V
  setupProgress : C → C → G → V
  engineFacts : C → G → V → V
  /-- `refresh_engine_process_landing`, and what of the facts it leaves alone. -/
  landing : C → V → V → V
  core : V → V
  landing_core : ∀ c facts contracts, core (landing c facts contracts) = core facts
  pruneDrift : C → V → C
  driftSnapshots : C → V
  gates : C → C → V
  agentPickups : C → V
  expectationRows : C → V
  attentionDismissals : C → V
  startProgress : C → V
  toolReports : C → V

structure Retained (V G : Type) where
  slot : Slot → V
  /-- `_contracts` is not `None`. -/
  primed : Bool
  providerGroups : G
  engineGroups : G

structure Pass where
  refresh : ProjectionRefresh
  tasksChanged : Bool
  providersMoved : Bool
  enginesMoved : Bool

inductive Instr
  | read (s : Slot)
  | pruneLogs
  | admission
  | pruneDrift
  /-- The repository surfaces, the reducer and the write. -/
  | finish
  deriving DecidableEq

def program : List Instr :=
  [.read .contracts, .read .enclosures, .read .taskDocuments, .read .series, .pruneLogs, .read .lifecycleLogs, .admission,
    .read .setupSummaries, .read .providers, .read .setupProgress, .read .engineProcessFacts, .pruneDrift, .read .driftSnapshots,
    .read .gates, .read .agentPickups, .read .expectationRows, .read .attentionDismissals, .read .engineStartProgress,
    .read .toolReports, .finish]

def Pass.workspace (p : Pass) : Bool := p.refresh.affects .workspace || p.refresh.affects .lifecycles

def Pass.owes (p : Pass) : Slot → Bool
  | .contracts | .enclosures | .taskDocuments | .series => p.tasksChanged
  | .lifecycleLogs => p.tasksChanged || p.refresh.affects .lifecycles
  | .setupSummaries => p.refresh.affects .providers
  | .providers | .setupProgress => p.refresh.affects .providers || p.providersMoved
  | .engineProcessFacts => p.tasksChanged || p.enginesMoved
  | .driftSnapshots => p.tasksChanged || p.refresh.affects .drift
  | .gates | .agentPickups | .expectationRows | .attentionDismissals => p.workspace
  | .engineStartProgress => p.refresh.affects .startProgress
  | .toolReports => p.refresh.affects .toolReports

def Slot.onHeartbeat : Slot → Bool
  | .lifecycleLogs | .setupSummaries | .providers | .setupProgress | .engineProcessFacts => true
  | .gates | .agentPickups | .expectationRows | .attentionDismissals => true
  | _ => false

def Pass.reads (p : Pass) (s : Slot) : Bool := (p.refresh.isHeartbeat && s.onHeartbeat) || p.owes s

section
variable {C V G : Type} [DecidableEq G] (r : Readers C V G)

def Readers.value (f : Files C) (st : Retained V G) : Slot → V
  | .contracts => r.contracts (f.root .tasks)
  | .enclosures => r.enclosures (f.root .tasks) f.elsewhere (st.slot .contracts)
  | .taskDocuments => r.taskDocuments (f.root .tasks) (st.slot .enclosures)
  | .series => r.series (f.root .tasks)
  | .lifecycleLogs => r.lifecycleLogs (f.root .lifecycles)
  | .setupSummaries => r.setupSummaries (f.root .providers)
  | .providers => r.providers (f.root .providers) f.elsewhere st.providerGroups
  | .setupProgress => r.setupProgress (f.root .providers) f.elsewhere st.providerGroups
  | .engineProcessFacts => r.engineFacts f.elsewhere st.engineGroups (st.slot .contracts)
  | .driftSnapshots => r.driftSnapshots (f.root .drift)
  | .gates => r.gates (f.root .lifecycles) (f.root .workspace)
  | .agentPickups => r.agentPickups (f.root .workspace)
  | .expectationRows => r.expectationRows (f.root .workspace)
  | .attentionDismissals => r.attentionDismissals (f.root .workspace)
  | .engineStartProgress => r.startProgress (f.root .startProgress)
  | .toolReports => r.toolReports (f.root .toolReports)

def Readers.refreshed (f : Files C) (st : Retained V G) (p : Pass) (s : Slot) : V :=
  if s = .engineProcessFacts ∧ p.owes s = false then r.landing f.elsewhere (st.slot s) (st.slot .contracts) else r.value f st s

def Retained.put (st : Retained V G) (s : Slot) (v : V) : Retained V G :=
  { st with slot := Function.update st.slot s v, primed := st.primed || decide (s = .contracts) }

structure Tick (C V G : Type) where
  files : Files C
  retained : Retained V G
  pass : Pass

def Readers.exec (t : Tick C V G) : Instr → Tick C V G
  | .read s => if t.pass.reads s then { t with retained := t.retained.put s (r.refreshed t.files t.retained t.pass s) } else t
  | .pruneLogs =>
    if t.pass.reads .lifecycleLogs then
      { t with files := t.files.set .lifecycles (r.pruneLogs (t.files.root .lifecycles) (t.retained.slot .enclosures)) }
    else t
  | .admission =>
    let admitted := r.admittedGroups (t.retained.slot .enclosures) (t.retained.slot .lifecycleLogs) t.files.elsewhere
    let active := r.activeGroups (t.retained.slot .enclosures) (t.retained.slot .lifecycleLogs) t.files.elsewhere
    { files := t.files
      retained := { t.retained with providerGroups := admitted, engineGroups := active }
      pass := { t.pass with
        providersMoved := decide (admitted ≠ t.retained.providerGroups), enginesMoved := decide (active ≠ t.retained.engineGroups) } }
  | .pruneDrift =>
    if t.pass.reads .driftSnapshots then
      { t with files := t.files.set .drift (r.pruneDrift (t.files.root .drift) (t.retained.slot .contracts)) }
    else t
  | .finish => t

def startPass (st : Retained V G) (refresh : ProjectionRefresh) : Pass := ⟨refresh, refresh.affects .tasks || !st.primed, false, false⟩

/-- A tick in which no reader raises. -/
def Readers.read (f : Files C) (st : Retained V G) (refresh : ProjectionRefresh) : Tick C V G :=
  program.foldl r.exec ⟨f, st, startPass st refresh⟩

end

/-! ## Watcher, pacer and projection loop

`ChangePacer` and `Projector.run`: files change at any time, the watcher reports
the domains of changes, a due wake takes what is pending and starts a tick, and
the tick calls its readers one after another while files go on changing. When a
wake is due is left free; its reason is the pacer's.
-/

open Lib

structure Pacer where
  healthy : Bool
  firstPending : Bool
  pendingDomains : List ProjectionDomain

def Pacer.notifyChange (p : Pacer) (domains : List ProjectionDomain) : Pacer :=
  { p with firstPending := true, pendingDomains := p.pendingDomains ++ domains }

def Pacer.wake (p : Pacer) : ProjectionRefresh :=
  if !p.healthy then fullRefresh else if p.firstPending then changeRefresh p.pendingDomains else heartbeatRefresh

def Pacer.consumed (p : Pacer) : Pacer := { p with firstPending := false, pendingDomains := [] }

structure World (C V G : Type) where
  files : Files C
  pacer : Pacer
  retained : Retained V G
  /-- The pass under way, and the calls it has left. -/
  running : Option (Pass × List Instr)
  /-- The number of steps so far, the files after each of them, and the step at which a domain was last reported. -/
  clock : Nat
  past : Nat → Files C
  notified : ProjectionDomain → Nat

inductive Action (C : Type)
  | change (files : Files C)
  | notify (domains : List ProjectionDomain)
  | setWatcherHealthy (healthy : Bool)
  | wake
  /-- The next call of the tick returns, or raises. -/
  | call
  | raise

variable {C V G : Type} [DecidableEq G] (r : Readers C V G)

def World.advance (w : World C V G) : World C V G :=
  { w with clock := w.clock + 1, past := Function.update w.past (w.clock + 1) w.files }

def World.call (w : World C V G) (p : Pass) (i : Instr) (rest : List Instr) : World C V G :=
  let t := r.exec ⟨w.files, w.retained, p⟩ i
  { w with files := t.files, retained := t.retained, running := if rest = [] then none else some (t.pass, rest) }

def World.step (w : World C V G) : Action C → Option (World C V G)
  | .change files => some (World.advance { w with files := files })
  | .notify domains =>
    let w := World.advance { w with pacer := w.pacer.notifyChange domains }
    some { w with notified := fun d => if domains.contains d then w.clock else w.notified d }
  | .setWatcherHealthy healthy => some (World.advance { w with pacer := { w.pacer with healthy := healthy } })
  | .wake =>
    match w.running with
    | some _ => none
    | none =>
      some (World.advance { w with pacer := w.pacer.consumed, running := some (startPass w.retained w.pacer.wake, program) })
  | .call =>
    match w.running with
    | some (p, i :: rest) => some (World.advance (w.call r p i rest))
    | _ => none
  | .raise =>
    match w.running with
    | some _ => some (World.advance { w with running := none })
    | none => none

/-- Serving starts with `prime`. -/
def projectorSystem (files : Files C) (empty : Retained V G) : System (World C V G) (Action C) where
  init := ⟨files, ⟨false, false, []⟩, empty, some (startPass empty fullRefresh, program), 0, fun _ => files, fun _ => 0⟩
  step := World.step r

end AgentsRemember.Projection
