import AgentsRemember.Inbox.Records
import AgentsRemember.Lib.System

/-!
# Expectation rows

What must happen, by when: one append-only log of snapshots, folded by id with
the last one winning. The writers take the row from a fold their caller has and
append to the log there is; a compaction reads and rewrites the log in one step.
-/

namespace AgentsRemember.Expectations

open Lib

inductive ExpectationKind
  | briefedBy | verdictBy | turnReportBy | ackBy

inductive ExpectationState
  | pending | met | missed
  deriving DecidableEq

structure ExpectationRow where
  schemaVersion : String := "1.0"
  schema : String := "ar-expectation-row/v2"
  id : String
  ts : String
  kind : ExpectationKind
  state : ExpectationState
  createdAt : String
  dueAt : String
  sourceId : String
  subjectAgentId : Option String := none
  subjectLifecycleId : Option String := none
  taskDocumentRef : Option Inbox.TaskDocumentRef := none
  seatRole : Option String := none
  note : Option String := none
  metAt : Option String := none
  missedAt : Option String := none

structure ExpectationSubject where
  agentId : Option String := none
  lifecycleId : Option String := none
  taskDocumentRef : Option Inbox.TaskDocumentRef := none
  seatRole : Option String := none

structure Expectation where
  kind : ExpectationKind
  sourceId : String
  subject : ExpectationSubject := {}
  note : Option String := none

def createExpectationRow (expectation : Expectation) (rowId now dueAt : String) : ExpectationRow :=
  { id := rowId
    ts := now
    kind := expectation.kind
    state := .pending
    createdAt := now
    dueAt := dueAt
    sourceId := expectation.sourceId
    subjectAgentId := expectation.subject.agentId
    subjectLifecycleId := expectation.subject.lifecycleId
    taskDocumentRef := expectation.subject.taskDocumentRef
    seatRole := expectation.subject.seatRole
    note := expectation.note }

def dueAtFromSla (clock : Clock) (now : Stamp) (sla : Int) : String := clock.format { now with micros := now.micros + sla }

def markMet (row : ExpectationRow) (now : String) : ExpectationRow :=
  if row.state ≠ .pending then row else { row with ts := now, state := .met, metAt := some now }

def markMissed (row : ExpectationRow) (now : String) : ExpectationRow :=
  if row.state ≠ .pending then row else { row with ts := now, state := .missed, missedAt := some now }

def terminalTime (clock : Clock) (row : ExpectationRow) : Option Stamp :=
  clock.parse ((pyOr row.metAt (pyOr row.missedAt (some row.ts))).getD "")

/-! ## The log -/

abbrev ExpectationLog := List ExpectationRow

def current (log : ExpectationLog) : Dict String ExpectationRow := foldLog ExpectationRow.id (fun _ _ => false) log

def noRow (id : String) : String := s!"no expectation row {textRepr id}"

def storeMarkMet (log : ExpectationLog) (seen : Option ExpectationRow) (rowId now : String) : Except String ExpectationLog :=
  match seen with
  | none => .error (noRow rowId)
  | some row => .ok (if row.state ≠ .pending then log else log ++ [markMet row now])

def storeMarkMissed (log : ExpectationLog) (seen : Option ExpectationRow) (rowId now : String) : Except String ExpectationLog :=
  match seen with
  | none => .error (noRow rowId)
  | some row => .ok (if row.state ≠ .pending then log else log ++ [markMissed row now])

def stale (clock : Clock) (row : ExpectationRow) (cutoff : Stamp) : Bool :=
  match terminalTime clock row with
  | none => false
  | some terminal => (terminal.lt? cutoff).getD false

def keepRow (clock : Clock) (row : ExpectationRow) (cutoff : Stamp) : Bool :=
  if row.state = .pending then true else !stale clock row cutoff

/-- The folded rows a compaction keeps and returns. -/
def keptRows (clock : Clock) (log : ExpectationLog) (now : Stamp) (retain : Int) : Dict String ExpectationRow :=
  (current log).filterKeys fun id => ((current log).get? id).all fun row => keepRow clock row (now.minus retain)

def compact (clock : Clock) (log : ExpectationLog) (now : Stamp) (retain : Int) : ExpectationLog :=
  let kept := keptRows clock log now retain
  if log.length - kept.values.length = 0 then log else kept.values

/-! ## The fold -/

theorem current_mem {log : ExpectationLog} {id : String} {r : ExpectationRow} (h : (current log).get? id = some r) :
    r ∈ log ∧ r.id = id := foldLog_mem _ _ h

theorem current_concat (log : ExpectationLog) (r : ExpectationRow) (id : String) :
    (current (log ++ [r])).get? id = if r.id = id then some r else (current log).get? id := by
  rw [current, get?_foldLog_concat, supersede_last]
  rfl

theorem markMet_id (row : ExpectationRow) (now : String) : (markMet row now).id = row.id := by
  unfold markMet
  split <;> rfl

theorem markMissed_id (row : ExpectationRow) (now : String) : (markMissed row now).id = row.id := by
  unfold markMissed
  split <;> rfl

variable {row : ExpectationRow}

theorem markMet_state (now : String) (h : row.state = .pending) : (markMet row now).state = .met := by
  rw [markMet, if_neg (by simp [h])]

theorem markMissed_state (now : String) (h : row.state = .pending) : (markMissed row now).state = .missed := by
  rw [markMissed, if_neg (by simp [h])]

/-! ## Any interleaving

A caller has its row from the fold of a log of any earlier time, or kept the row
it appended there. New rows have new ids. -/

inductive Seen
  | fold (ago : Nat)
  | row (ago index : Nat)

inductive ExpectationAction
  | write (expectation : Expectation) (rowId : String) (now : Stamp) (sla : Int)
  | markMet (seen : Seen) (rowId now : String)
  | markMissed (seen : Seen) (rowId now : String)
  | compact (now : Stamp) (retain : Int)

structure World where
  log : ExpectationLog
  past : List ExpectationLog

namespace World

def init : World := ⟨[], []⟩

def logs (w : World) : List ExpectationLog := w.log :: w.past

def advance (w : World) (log : ExpectationLog) : World := ⟨log, w.logs⟩

def logAt (w : World) (ago : Nat) : ExpectationLog := w.logs.getD ago w.log

def seenRow (w : World) (seen : Seen) (id : String) : Option ExpectationRow :=
  match seen with
  | .fold ago => (current (w.logAt ago)).get? id
  | .row ago index => ((w.logAt ago)[index]?).filter fun r => decide (r.id = id)

def fresh (w : World) (id : String) : Bool := w.logs.all fun log => log.all fun r => decide (r.id ≠ id)

def result (clock : Clock) (w : World) : ExpectationAction → Except String ExpectationLog
  | .write expectation id now sla =>
    if w.fresh id then .ok (w.log ++ [createExpectationRow expectation id (clock.format now) (dueAtFromSla clock now sla)])
    else .error id
  | .markMet seen id now => storeMarkMet w.log (w.seenRow seen id) id now
  | .markMissed seen id now => storeMarkMissed w.log (w.seenRow seen id) id now
  | .compact now retain => .ok (Expectations.compact clock w.log now retain)

def step (clock : Clock) (w : World) (a : ExpectationAction) : Option World :=
  match w.result clock a with
  | .ok log => some (w.advance log)
  | .error _ => none

theorem seenRow_id {w : World} {seen : Seen} {id : String} {r : ExpectationRow} (h : w.seenRow seen id = some r) :
    r.id = id := by
  cases seen with
  | fold ago => exact (current_mem h).2
  | row ago index => exact of_decide_eq_true (Option.filter_eq_some_iff.mp h).2

end World

def expectationSystem (clock : Clock) : System World ExpectationAction := ⟨World.init, World.step clock⟩

end AgentsRemember.Expectations
