import AgentsRemember.Catalog.Entry

/-!
# The catalog and its commands

`terminal_catalog.py`, and the transaction of `terminal_opener.py`, which runs
under the catalog's lock. A mutation, an upsert and an opening are each one
step, as the file lock makes them. `log` is a ghost: what each write meant to
set, newest first.
-/

namespace AgentsRemember.Catalog

open Lib
open Inbox (TaskDocumentRef)
open Harness (ControlState)

/-- A write: the columns it meant to set, and the row it wrote. -/
structure Commit where
  session : String
  sets : Column → Bool
  row : TerminalCatalogEntry

abbrev Rows := Dict String TerminalCatalogEntry

structure TerminalCatalog where
  rows : Rows
  log : List Commit

inductive Question
  -- The host session and the tmux pane; no evidence is a live one.
  | probe (session tmuxName : String)
  | pane (tmuxName : String)
  | snapshot (session : String)
  | terminalEvidence (session : String) (entry : TerminalCatalogEntry)
  | synchronize (session : String)
  | hasSession (tmuxName : String)
  -- The task topology and the source lineage.
  | admits (ref : TaskDocumentRef) (seatRole : String)
  | stopControl (session : String)
  | retireAllowed (session : String)

structure TerminalEvidenceProjection where
  evidence : TurnTerminalEvidence
  evidenceId : String
  observedAt : String

structure TerminalEvidenceRead where
  projection : Option TerminalEvidenceProjection
  evidenceSequence : Option Int := none
  nativeCursor : Option String := none

inductive EvidenceReply
  | read (r : TerminalEvidenceRead)
  -- `HarnessControlError`.
  | failed
  -- Any other exception.
  | raised

@[reducible] def Question.Reply : Question → Type
  | .probe _ _ => Option TerminalLivenessEvidence
  | .pane _ => String
  | .snapshot _ => Except String AdapterSnapshot
  | .terminalEvidence _ _ => EvidenceReply
  | .synchronize _ => Option String
  | .hasSession _ => Bool
  | .admits _ _ => Bool
  | .stopControl _ => Option String
  | .retireAllowed _ => Bool

abbrev Outside := (q : Question) → q.Reply

/-! ## Reading -/

def rowsListed (rows : Rows) (includeTerminated : Bool) : List (String × TerminalCatalogEntry) :=
  rows.entries.filter fun e => includeTerminated || decide (e.2.status ≠ .terminated)

def occupies (ref : TaskDocumentRef) (seatRole : String) (e : TerminalCatalogEntry) : Bool :=
  e.taskDocumentRef = some ref ∧ e.status = .running ∧ e.bindingRole = seatRole

def replaces (ref : TaskDocumentRef) (seatRole : String) (e : TerminalCatalogEntry) : Bool :=
  e.replacementForTaskDocumentRef = some ref ∧ e.status = .running ∧ e.bindingRole = seatRole

/-- `active_for_task`, over the rows that a read listed; the error is its `ValueError`. -/
def activeForTask (listed : List (String × TerminalCatalogEntry)) (ref : TaskDocumentRef) (seatRole : String) :
    Except Unit (Option (String × TerminalCatalogEntry)) :=
  match listed.filter fun e => occupies ref seatRole e.2 with
  | [] => .ok none
  | [e] => .ok (some e)
  | _ :: _ :: _ => .error ()

/-- `StructuralSeatResolver.current` and the router's `_current_occupant`: the occupant, or else the staged replacement. -/
def currentOccupant (listed : List (String × TerminalCatalogEntry)) (ref : TaskDocumentRef) (seatRole : String) :
    Except Unit (Option (String × TerminalCatalogEntry)) :=
  match listed.filter fun e => occupies ref seatRole e.2 with
  | [e] => .ok (some e)
  | _ :: _ :: _ => .error ()
  | [] =>
    match listed.filter fun e => replaces ref seatRole e.2 with
    | [] => .ok none
    | [e] => .ok (some e)
    | _ :: _ :: _ => .error ()

/-! ## Opening -/

structure OpenRequest where
  kind : TerminalSessionKind
  harness : Option String
  cwd : String
  -- `AR_SPAWN_ROLE` of the launch environment.
  spawnRole : Option String
  -- Harness, model and effort of the resolved launch.
  resolvedLaunch : Option (String × String × Option String)
  controlState : ControlState
  controlEndpoint : Option String
  label : Option String
  taskDocumentRef : Option TaskDocumentRef
  replacementForTaskDocumentRef : Option TaskDocumentRef
  launch : LaunchColumns
  attachedAt : String
  tmuxName : String

def controlProtocolVersion : String := "ar-harness-control/v1"

inductive OpenTerminalStatus
  | opened | launchConflict | bindingRequired | bindingInvalid | seatTaken | raised
  deriving DecidableEq

def launchIdentityConflict (existing : TerminalCatalogEntry) (r : OpenRequest) : Bool :=
  existing.kind ≠ r.kind || existing.harness ≠ r.harness || existing.cwd ≠ r.cwd ||
    r.resolvedLaunch.any fun l => some l.1 ≠ existing.harness || (existing.launch.resolvedModel, existing.launch.resolvedEffort) ≠
      (some l.2.1, l.2.2)

def openedSeatRole (existing : Option TerminalCatalogEntry) (r : OpenRequest) : String :=
  migratedSeatRole (existing.bind TerminalCatalogEntry.seatRole) (pyOr r.spawnRole (existing.bind TerminalCatalogEntry.spawnRole))
    r.kind

/-- `_task_binding_refusal`, where it refuses. -/
def taskBindingRefusal (outside : Outside) (r : OpenRequest) (seatRole : String) : Option OpenTerminalStatus :=
  if r.taskDocumentRef.isSome ∧ r.replacementForTaskDocumentRef.isSome then some .bindingInvalid
  else
    match r.taskDocumentRef.or r.replacementForTaskDocumentRef with
    | none => if seatRole = "chat" ∨ seatRole = "terminal" then none else some .bindingRequired
    | some ref => if outside (.admits ref seatRole) then none else some .bindingInvalid

namespace TerminalCatalog

variable (clock : Clock) (outside : Outside) (s : TerminalCatalog)

def write (session : String) (row : TerminalCatalogEntry) (sets : Column → Bool) : TerminalCatalog :=
  ⟨s.rows.set session row, ⟨session, sets, row⟩ :: s.log⟩

def mutate (session : String) (m : Mutation) : Option (Option TerminalCatalogEntry) × TerminalCatalog :=
  match s.rows.get? session with
  | none => (some none, s)
  | some e =>
    match m.apply clock e with
    | none => (none, s)
    | some e' => (some (some e'), s.write session e' m.sets)

def taskBindingConflictOwner (ref : TaskDocumentRef) (session seatRole : String) :
    Except Unit (Option String) × TerminalCatalog :=
  match activeForTask (rowsListed s.rows false) ref seatRole with
  | .error e => (.error e, s)
  | .ok none => (.ok none, s)
  | .ok (some (owner, e)) =>
    if owner = session then (.ok none, s)
    else if outside (.hasSession e.tmuxName) then (.ok (some owner), s)
    else (.ok none, (s.mutate clock owner .exited).2)

def replacementConflictAmong (ref : TaskDocumentRef) (session seatRole : String) :
    List (String × TerminalCatalogEntry) → TerminalCatalog → Option String × TerminalCatalog
  | [], s => (none, s)
  | (candidate, e) :: rest, s =>
    if candidate = session ∨ replaces ref seatRole e = false then replacementConflictAmong ref session seatRole rest s
    else if outside (.hasSession e.tmuxName) then (some candidate, s)
    else replacementConflictAmong ref session seatRole rest (s.mutate clock candidate .exited).2

def bindingConflictOwner (r : OpenRequest) (session seatRole : String) : Except Unit (Option String) × TerminalCatalog :=
  match r.taskDocumentRef, r.replacementForTaskDocumentRef with
  | some ref, _ => s.taskBindingConflictOwner clock outside ref session seatRole
  | none, some ref =>
    let (owner, s) := replacementConflictAmong clock outside ref session seatRole (rowsListed s.rows false) s
    (.ok owner, s)
  | none, none => (.ok none, s)

end TerminalCatalog

/-- `_opened_catalog_entry`: what the row had of the binding and of its spawner comes before what the request names. -/
def openedCatalogEntry (session : String) (existing : Option TerminalCatalogEntry) (r : OpenRequest) (seatRole : String) :
    TerminalCatalogEntry where
  kind := r.kind
  harness := r.harness
  cwd := r.cwd
  tmuxName := (existing.map TerminalCatalogEntry.tmuxName).getD r.tmuxName
  createdAt := r.attachedAt
  spawnRole := r.spawnRole
  replacementForTaskDocumentRef :=
    (existing.bind TerminalCatalogEntry.replacementForTaskDocumentRef).or r.replacementForTaskDocumentRef
  controlEndpoint := if r.kind = .harness ∧ r.harness.isSome then r.controlEndpoint else none
  launch := { r.launch with
    spawnedBySession := pyOr (existing.bind fun e => e.launch.spawnedBySession) r.launch.spawnedBySession
    spawnedByLifecycle := pyOr (existing.bind fun e => e.launch.spawnedByLifecycle) r.launch.spawnedByLifecycle
    controlProtocol := if r.kind = .harness ∧ r.harness.isSome then some controlProtocolVersion else none }
  label := (pyOr r.label (existing.map TerminalCatalogEntry.label)).getD
    (if r.kind = .terminal then "Terminal" else (pyOr r.harness (some session)).getD "")
  lastAttachedAt := r.attachedAt
  status := .running
  taskDocumentRef := (existing.bind TerminalCatalogEntry.taskDocumentRef).or r.taskDocumentRef
  seatRole := some seatRole
  control := if r.kind = .harness ∧ r.harness.isSome then { state := some r.controlState } else {}

namespace TerminalCatalog

def openTerminal (clock : Clock) (outside : Outside) (s : TerminalCatalog) (session : String) (r : OpenRequest) :
    OpenTerminalStatus × TerminalCatalog :=
  let existing := s.rows.get? session
  match existing.filter fun e => outside (.hasSession e.tmuxName) with
  | some live => (if launchIdentityConflict live r then .launchConflict else .opened, s)
  | none =>
    let seatRole := openedSeatRole existing r
    match taskBindingRefusal outside r seatRole with
    | some refusal => (refusal, s)
    | none =>
      match s.bindingConflictOwner clock outside r session seatRole with
      | (.error _, s) => (.raised, s)
      | (.ok (some _), s) => (.seatTaken, s)
      | (.ok none, s) => (.opened, s.write session (openedCatalogEntry session existing r seatRole) fun _ => true)

def reclaimed (clock : Clock) (now retainMicros : Int) (e : TerminalCatalogEntry) : Bool :=
  decide (e.status = .terminated) && ((e.terminatedAt.bind fun at' => ageMicros clock.parse at' now).any (· > retainMicros))

def terminatedRetentionMicros : Int := 86400000000

def compact (clock : Clock) (s : TerminalCatalog) (now : Int) : TerminalCatalog :=
  { s with rows := s.rows.filterKeys fun session =>
      !((s.rows.get? session).any (reclaimed clock now terminatedRetentionMicros)) }

end TerminalCatalog

inductive Command
  | get (session : String)
  | list (includeTerminated : Bool)
  | mutate (session : String) (m : Mutation)
  -- `catalog.upsert` of a copy of the row that the writer holds.
  | upsert (session : String) (copy : TerminalCatalogEntry) (u : Update)
  | openTerminal (session : String) (r : OpenRequest)
  | compact (now : Int)
  | ask (q : Question)

@[reducible] def Command.Answer : Command → Type
  | .get _ => Option TerminalCatalogEntry
  | .list _ => List (String × TerminalCatalogEntry)
  | .mutate _ _ => Option (Option TerminalCatalogEntry)
  | .upsert _ _ _ => Unit
  | .openTerminal _ _ => OpenTerminalStatus
  | .compact _ => Unit
  | .ask q => q.Reply

def exec (clock : Clock) (outside : Outside) (s : TerminalCatalog) : (c : Command) → c.Answer × TerminalCatalog
  | .get session => (s.rows.get? session, s)
  | .list includeTerminated => (rowsListed s.rows includeTerminated, s)
  | .mutate session m => s.mutate clock session m
  | .upsert session copy u => ((), s.write session (u.apply copy) (u.sets copy))
  | .openTerminal session r => s.openTerminal clock outside session r
  | .compact now => ((), s.compact clock now)
  | .ask q => (outside q, s)

/-! ## What the commands leave -/

variable {s : TerminalCatalog} {session : String} {e : TerminalCatalogEntry}

variable {clock : Clock} {other : String} {m : Mutation} {P : TerminalCatalog → Prop} {outside : Outside}
  {r : OpenRequest}

theorem get?_mutate_ne (h : other ≠ session) : (s.mutate clock other m).2.rows.get? session = s.rows.get? session := by
  unfold TerminalCatalog.mutate
  cases s.rows.get? other with
  | none => rfl
  | some e =>
    dsimp only
    cases m.apply clock e with
    | none => rfl
    | some e' => exact Dict.get?_set_ne _ _ h

theorem get?_mutate_cases {e' : TerminalCatalogEntry} (h : (s.mutate clock other m).2.rows.get? session = some e') :
    s.rows.get? session = some e' ∨ other = session ∧ ∃ e, s.rows.get? session = some e ∧ m.apply clock e = some e' := by
  by_cases hs : other = session
  · subst hs
    unfold TerminalCatalog.mutate at h
    cases hrow : s.rows.get? other with
    | none =>
      rw [hrow] at h
      exact .inl (hrow.symm.trans h)
    | some e =>
      rw [hrow] at h
      dsimp only at h
      cases happly : m.apply clock e with
      | none =>
        rw [happly] at h
        exact .inl (hrow.symm.trans h)
      | some e₁ =>
        rw [happly] at h
        dsimp only at h
        rw [TerminalCatalog.write, Dict.get?_set_self] at h
        cases h
        exact .inr ⟨rfl, e, rfl, happly⟩
  · exact .inl ((get?_mutate_ne hs).symm.trans h)

theorem bindingConflictOwner_keeps {seatRole : String} (hP : ∀ s owner, P s → P (s.mutate clock owner .exited).2)
    (h : P s) : P (s.bindingConflictOwner clock outside r other seatRole).2 := by
  have hamong : ∀ (ref : Inbox.TaskDocumentRef) (candidates : List (String × TerminalCatalogEntry)) (s : TerminalCatalog),
      P s → P (TerminalCatalog.replacementConflictAmong clock outside ref other seatRole candidates s).2 := by
    intro ref candidates
    induction candidates with
    | nil => exact fun _ h => h
    | cons candidate rest ih =>
      intro s h
      simp only [TerminalCatalog.replacementConflictAmong]
      split
      · exact ih s h
      split
      · exact h
      · exact ih _ (hP s _ h)
  unfold TerminalCatalog.bindingConflictOwner
  split
  · unfold TerminalCatalog.taskBindingConflictOwner
    split
    · exact h
    · exact h
    split
    · exact h
    split
    · exact h
    · exact hP s _ h
  · exact hamong _ _ s h
  · exact h

theorem openTerminal_keeps (hP : ∀ s owner, P s → P (s.mutate clock owner .exited).2)
    (hwrite : ∀ s existing seatRole, P s → P (s.write other (openedCatalogEntry other existing r seatRole) fun _ => true))
    (h : P s) : P (s.openTerminal clock outside other r).2 := by
  unfold TerminalCatalog.openTerminal
  dsimp only
  split
  · exact h
  split
  · exact h
  have hc : P (s.bindingConflictOwner clock outside r other (openedSeatRole (s.rows.get? other) r)).2 :=
    bindingConflictOwner_keeps hP h
  split
  · rename_i he
    rwa [he] at hc
  · rename_i he
    rwa [he] at hc
  rename_i he
  rw [he] at hc
  exact hwrite _ _ _ hc

theorem get?_compact {now : Int} (h : (s.compact clock now).rows.get? session = some e) :
    s.rows.get? session = some e := by
  rw [TerminalCatalog.compact, Dict.get?_filterKeys] at h
  split at h
  · exact h
  · cases h

end AgentsRemember.Catalog
