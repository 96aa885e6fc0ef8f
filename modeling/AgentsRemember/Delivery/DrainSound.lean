import AgentsRemember.Catalog.SeatSound
import AgentsRemember.Delivery.Attempts

/-!
# Boundary wake-ups

A row whose last attempt found its target busy is due once the catalog shows
the target at a boundary. The drain compares the stamp of the change, taken as
a sweep started, with the stamp of the attempt, taken before it read: it wakes
the row where no boundary is written without a stamp after the attempt's.
-/

namespace AgentsRemember.Delivery

open Lib
open Inbox (OperatorInboxEntry InboxLog DeliveryAttempt)
open Catalog (Rows TerminalCatalogEntry rowsListed)

/-! ## The claim of a state -/

def Addressed (clock : Clock) (s : Store) : Prop :=
  ∀ entry ∈ (Inbox.current s.log).values, entry.terminal = false → ∀ attemptedAt ∈ entry.lastAttemptAt,
    ∃ target ∈ (targetSessionForEntry s.catalog.rows entry).toOption, ∀ seat ∈ target,
      ∀ changedAt ∈ seat.2.turnStateChangedAt, ∀ a ∈ clock.parse attemptedAt, ∀ b ∈ clock.parse changedAt,
        a.offset.isSome = b.offset.isSome

instance (clock : Clock) (s : Store) : Decidable (Addressed clock s) := inferInstanceAs (Decidable (∀ _ ∈ _, _))

def OwnersRun (s : Store) : Prop :=
  ∀ entry ∈ (Inbox.current s.log).values, entry.terminal = false → entry.agentId.isSome = true →
    isSeatDead s.catalog.rows entry.agentId = false

instance (s : Store) : Decidable (OwnersRun s) := inferInstanceAs (Decidable (∀ _ ∈ _, _))

structure Free (s : Store) (id : String) (entry : OperatorInboxEntry) (w : Waiting) (target : TerminalCatalogEntry) : Prop where
  waiting : s.waiting.get? id = some w
  current : (Inbox.current s.log).get? id = some entry
  pending : entry.terminal = false
  resolved : targetSessionForEntry s.catalog.rows entry = .ok (some (w.session, target))
  boundary : seatAtTurnBoundary target = true

def Drained (clock : Clock) (s : Store) : Prop :=
  ∀ id entry w target, Free s id entry w target →
    ∃ fs, evaluateBoundaryDrainFindings clock s.catalog.rows (Inbox.current s.log) = some fs ∧ drainFinding entry ∈ fs

/-! ## The condition of a command -/

def LateRow (clock : Clock) (attemptedAt : String) (e : TerminalCatalogEntry) : Prop :=
  seatAtTurnBoundary e = true → ChangedAfter clock attemptedAt e

instance (clock : Clock) (attemptedAt : String) (e : TerminalCatalogEntry) : Decidable (LateRow clock attemptedAt e) :=
  inferInstanceAs (Decidable (_ → _))

def WritesLate (clock : Clock) (rows : Rows) (w : Waiting) : Catalog.Command → Prop
  | .mutate session m => session = w.session → ∀ e ∈ rows.get? session, ∀ e' ∈ m.apply clock e, LateRow clock w.attemptedAt e'
  | .upsert session copy u => session = w.session → LateRow clock w.attemptedAt (u.apply copy)
  | .openTerminal session r => session = w.session → r.controlState ≠ .ready
  | _ => True

instance (clock : Clock) (rows : Rows) (w : Waiting) : (c : Catalog.Command) → Decidable (WritesLate clock rows w c)
  | .mutate session m => inferInstanceAs (Decidable (session = w.session → ∀ e ∈ rows.get? session, ∀ e' ∈ m.apply clock e,
      LateRow clock w.attemptedAt e'))
  | .upsert session copy u => inferInstanceAs (Decidable (session = w.session → LateRow clock w.attemptedAt (u.apply copy)))
  | .openTerminal session r => inferInstanceAs (Decidable (session = w.session → r.controlState ≠ .ready))
  | .get _ | .list _ | .compact _ | .ask _ => .isTrue trivial

def rowPending (s : Store) (id : String) : Bool := ((Inbox.current s.log).get? id).any fun e => !e.terminal

/-- No write takes a waited-for session to a boundary that is not stamped after the attempt, and none did by the time
the refusal of a busy session is recorded. -/
def clocked (clock : Clock) (s : Store) : Command → Prop
  | .catalog c => ∀ p ∈ s.waiting.entries, rowPending s p.1 = true → WritesLate clock s.catalog.rows p.2 c
  | .record _ _ _ now _ (some session) => ∀ e ∈ s.catalog.rows.get? session, LateRow clock now e
  | _ => True

instance (clock : Clock) (s : Store) : (c : Command) → Decidable (clocked clock s c)
  | .catalog c => inferInstanceAs (Decidable (∀ p ∈ s.waiting.entries, rowPending s p.1 = true →
      WritesLate clock s.catalog.rows p.2 c))
  | .record _ _ _ now _ (some session) => inferInstanceAs (Decidable (∀ e ∈ s.catalog.rows.get? session, LateRow clock now e))
  | .record _ _ _ _ _ none | .rows | .briefGate _ | .current | .post .. | .submit .. | .reconcile .. | .rebind .. => .isTrue trivial

/-! ## Catalog writes -/

def LateBoundary (clock : Clock) (rows : Rows) (w : Waiting) : Prop :=
  ∀ e, rows.get? w.session = some e → LateRow clock w.attemptedAt e

section
variable {clock : Clock} {w : Waiting} {t : Catalog.TerminalCatalog}

variable {session : String}

theorem LateBoundary.mutate (h : LateBoundary clock t.rows w) {m : Catalog.Mutation}
    (hm : session = w.session → ∀ e ∈ t.rows.get? session, ∀ e' ∈ m.apply clock e, LateRow clock w.attemptedAt e') :
    LateBoundary clock (t.mutate clock session m).2.rows w := by
  intro e' he'
  rcases Catalog.get?_mutate_cases he' with he' | ⟨rfl, e, he, happly⟩
  · exact h e' he'
  · exact hm rfl e he e' happly

theorem LateBoundary.write (h : LateBoundary clock t.rows w) {row : TerminalCatalogEntry} {sets : Catalog.Column → Bool}
    (hrow : session = w.session → LateRow clock w.attemptedAt row) :
    LateBoundary clock (t.write session row sets).rows w := by
  intro e he
  rw [Catalog.TerminalCatalog.write, Dict.get?_set] at he
  split at he
  · rename_i hs
    cases he
    exact hrow hs
  · exact h e he

theorem LateBoundary.exited (h : LateBoundary clock t.rows w) (session : String) :
    LateBoundary clock (t.mutate clock session .exited).2.rows w := by
  refine h.mutate ?_
  rintro rfl e he e' he' hb
  cases he'
  split at hb
  · rename_i hstopped
    rcases hstopped with hstopped | hstopped <;> simp [seatAtTurnBoundary, hstopped] at hb
  · simp [seatAtTurnBoundary, TerminalCatalogEntry.withStatus] at hb

theorem LateBoundary.exec (h : LateBoundary clock t.rows w) {outside : Catalog.Outside} {c : Catalog.Command}
    (hc : WritesLate clock t.rows w c) : LateBoundary clock (Catalog.exec clock outside t c).2.rows w := by
  cases c with
  | get session => exact h
  | list includeTerminated => exact h
  | mutate session m => exact h.mutate hc
  | upsert session copy u => exact h.write hc
  | openTerminal session r =>
    refine Catalog.openTerminal_keeps (P := fun t => LateBoundary clock t.rows w) (fun _ owner h => h.exited owner)
      (fun _ existing seatRole h => h.write fun hs hb => ?_) h
    -- A row that was just opened has no turn claim, and its control is not ready.
    have hready := hc hs
    simp only [seatAtTurnBoundary, Catalog.openedCatalogEntry, decide_eq_true_eq] at hb
    split at hb <;> simp_all
  | compact now => exact fun e he => h e (Catalog.get?_compact he)
  | ask q => exact h

end

structure Inv (clock : Clock) (s : Store) : Prop where
  filed : ∀ id w, s.waiting.get? id = some w → ((Inbox.current s.log).get? id).isSome = true
  attempted : ∀ id w entry, s.waiting.get? id = some w → (Inbox.current s.log).get? id = some entry →
    entry.terminal = false → entry.lastAttemptAt = some w.attemptedAt
  late : ∀ id w entry, s.waiting.get? id = some w → (Inbox.current s.log).get? id = some entry →
    entry.terminal = false → LateBoundary clock s.catalog.rows w

section
variable {clock : Clock} {s : Store}

variable {entry u e : OperatorInboxEntry} {log : InboxLog} {attempt : DeliveryAttempt} {now : String}
  {floor : Option Int}

theorem get?_target {rows : Rows} {session : String} {target : TerminalCatalogEntry}
    (h : targetSessionForEntry rows entry = .ok (some (session, target))) : rows.get? session = some target := by
  have hrunning : ∀ {id : Option String}, id.bind (runningRow rows) = some (session, target) → rows.get? session = some target := by
    intro id hid
    obtain ⟨_, _, hrow⟩ := Option.bind_eq_some_iff.mp hid
    obtain ⟨e, he, hseat⟩ := Option.map_eq_some_iff.mp hrow
    cases hseat
    exact (Option.filter_eq_some_iff.mp he).1
  have hlisted : ∀ {p : Seat → Bool}, (session, target) ∈ (rowsListed rows false).filter p → rows.get? session = some target :=
    fun hmem => Dict.get?_eq_some.mpr (List.mem_filter.mp (List.mem_filter.mp hmem).1).1
  unfold targetSessionForEntry at h
  split at h
  · exact hrunning (Except.ok.inj h)
  split at h
  · unfold structuralTarget Catalog.currentOccupant at h
    split at h
    · rename_i seat hoccupants
      cases h
      exact hlisted (hoccupants ▸ List.mem_singleton_self _)
    · cases h
    split at h
    · cases h
    · rename_i seat hstaged
      cases h
      exact hlisted (hstaged ▸ List.mem_singleton_self _)
    · cases h
  · have h := Except.ok.inj h
    unfold correlatedTarget at h
    rcases Option.or_eq_some_iff.mp h with h | ⟨-, h⟩
    · exact hrunning h
    · obtain ⟨_, _, hfind⟩ := Option.bind_eq_some_iff.mp h
      exact Dict.get?_eq_some.mpr (List.mem_filter.mp (List.mem_of_find?_eq_some hfind)).1

theorem Addressed.evaluates (h : Addressed clock s) :
    ∃ fs, evaluateBoundaryDrainFindings clock s.catalog.rows (Inbox.current s.log) = some fs := by
  have hrow : ∀ entry ∈ (Inbox.current s.log).values,
      (boundaryDrain clock s.catalog.rows entry).isSome = true := by
    intro entry hentry
    unfold boundaryDrain
    split
    · rfl
    rename_i hp
    split
    · rfl
    split
    · rfl
    rename_i attemptedAt hattempted
    obtain ⟨target, htarget, hkind⟩ := h entry hentry (by simpa using hp) attemptedAt hattempted
    have htarget : targetSessionForEntry s.catalog.rows entry = .ok target := by
      cases heq : targetSessionForEntry s.catalog.rows entry with
      | error e => exact nomatch heq ▸ htarget
      | ok t => rw [heq] at htarget; exact congrArg _ (Option.some.inj htarget)
    rw [htarget]
    cases target with
    | none => rfl
    | some seat =>
      dsimp only
      split
      · rfl
      split
      · rfl
      rename_i changedAt hchanged
      split
      · rename_i b a hb ha
        rw [notAfter, if_pos (hkind seat rfl changedAt hchanged a ha b hb).symm]
        rfl
      · rfl
  obtain ⟨found, hfound⟩ := Option.isSome_iff_exists.mp (isSome_mapM.mpr hrow)
  exact ⟨found.flatten, by rw [evaluateBoundaryDrainFindings, hfound, Option.map_some]⟩

theorem Inv.drained (h : Inv clock s) (haddressed : Addressed clock s) (howners : OwnersRun s) : Drained clock s := by
  intro id entry w target hfree
  have hmem : entry ∈ (Inbox.current s.log).values := Dict.mem_values.mpr ⟨id, hfree.current⟩
  have hafter := h.late id w entry hfree.waiting hfree.current hfree.pending target (get?_target hfree.resolved) hfree.boundary
  have halive : ¬(entry.agentId.isSome = true ∧ isSeatDead s.catalog.rows entry.agentId = true) := fun hdead => by
    rw [howners entry hmem hfree.pending hdead.1] at hdead
    exact nomatch hdead.2
  have hdue := (boundaryDrain_iff hfree.pending (h.attempted id w entry hfree.waiting hfree.current hfree.pending)
    hfree.resolved hfree.boundary).mpr ⟨halive, hafter⟩
  obtain ⟨fs, hfs⟩ := haddressed.evaluates
  exact ⟨fs, hfs, mem_findings hfs hfree.current hdue⟩

/-! ## What a command keeps -/

theorem get?_append {id : String} (h : u.id ≠ id) :
    (Inbox.current (log ++ [u])).get? id = (Inbox.current log).get? id := by
  rw [Inbox.current, Inbox.fold_concat, if_neg h]
  rfl

theorem get?_appended (h : (Inbox.current (log ++ [u])).get? u.id = some e) : e = u ∨ e.terminal = true := by
  rw [Inbox.current, Inbox.fold_concat, if_pos rfl] at h
  obtain rfl := Option.some.inj h
  unfold supersede
  split
  · split
    · rename_i hdominates
      simp only [Inbox.dominates, Bool.and_eq_true] at hdominates
      exact .inr hdominates.1
    · exact .inl rfl
  · exact .inl rfl

theorem Inv.change (h : Inv clock s) {ledger : Ledger} (waiting : Dict String Waiting) (id : String)
    (hother : ∀ id', id' ≠ id → (Inbox.current log).get? id' = (Inbox.current s.log).get? id' ∧
      waiting.get? id' = s.waiting.get? id')
    (hrow : ∀ w, waiting.get? id = some w → ∃ e, (Inbox.current log).get? id = some e ∧
      (e.terminal = false → e.lastAttemptAt = some w.attemptedAt ∧ LateBoundary clock s.catalog.rows w)) :
    Inv clock { s with log := log, ledger := ledger, waiting := waiting } := by
  refine ⟨fun id' w hw => ?_, fun id' w e hw he hp => ?_, fun id' w e hw he hp => ?_⟩ <;> by_cases hid : id' = id
  · subst hid
    obtain ⟨e, he, -⟩ := hrow w hw
    exact Option.isSome_iff_exists.mpr ⟨e, he⟩
  · obtain ⟨hlog, hwaiting⟩ := hother id' hid
    exact hlog ▸ h.filed id' w (hwaiting ▸ hw)
  · subst hid
    obtain ⟨e', he', hpending⟩ := hrow w hw
    obtain rfl := Option.some.inj (he.symm.trans he')
    exact (hpending hp).1
  · obtain ⟨hlog, hwaiting⟩ := hother id' hid
    exact h.attempted id' w e (hwaiting ▸ hw) (hlog ▸ he) hp
  · subst hid
    obtain ⟨e', he', hpending⟩ := hrow w hw
    obtain rfl := Option.some.inj (he.symm.trans he')
    exact (hpending hp).2
  · obtain ⟨hlog, hwaiting⟩ := hother id' hid
    exact h.late id' w e (hwaiting ▸ hw) (hlog ▸ he) hp

theorem appended_row (log : InboxLog) (u : OperatorInboxEntry) :
    ∃ e, (Inbox.current (log ++ [u])).get? u.id = some e ∧ (e = u ∨ e.terminal = true) := by
  obtain ⟨e, he⟩ := Option.isSome_iff_exists.mp (show ((Inbox.current (log ++ [u])).get? u.id).isSome from
    (foldLog_isSome ..).mpr ⟨u, by simp, rfl⟩)
  exact ⟨e, he, get?_appended he⟩

theorem deliverySnapshot_attempted (h : Inbox.deliverySnapshot clock e attempt now floor = .ok u) :
    u.lastAttemptAt = some now := by
  unfold Inbox.deliverySnapshot at h
  split at h
  · cases h
    rfl
  split at h
  · cases h
  split at h
  · cases h
  · cases h
    rfl

theorem recordDelivery_row {log' : InboxLog}
    (h : Inbox.recordDelivery clock log (some entry) entry.id attempt now floor = .ok log') :
    (∀ id, id ≠ entry.id → (Inbox.current log').get? id = (Inbox.current log).get? id) ∧
      ∃ e, (Inbox.current log').get? entry.id = some e ∧ (e.terminal = false → e.lastAttemptAt = some now) := by
  simp only [Inbox.recordDelivery] at h
  split at h
  · unfold Inbox.transition at h
    split at h
    · cases h
    rename_i latest hlatest
    split at h
    · rename_i hnone
      cases h
      refine ⟨fun _ _ => rfl, latest, hlatest, fun hp => ?_⟩
      simp [Inbox.Transition.apply, hp] at hnone
    rename_i u hu
    cases h
    obtain ⟨-, hrow, hstate⟩ := Inbox.Transition.apply_spec hu
    have hid : u.id = entry.id := hrow.id.trans (Inbox.fold_mem hlatest).2
    obtain ⟨e, he, hlast⟩ := appended_row log u
    refine ⟨fun id hne => get?_append fun heq => hne (heq.symm.trans hid), e, hid ▸ he, fun hp => ?_⟩
    rcases hlast with rfl | hterminal
    · simp [OperatorInboxEntry.terminal, hstate, Inbox.Transition.state] at hp
    · exact nomatch hp.symm.trans hterminal
  · split at h
    · cases h
    rename_i u hu
    cases h
    have hid : u.id = entry.id := (Inbox.deliverySnapshot_spec hu).1.id
    obtain ⟨e, he, hlast⟩ := appended_row log u
    refine ⟨fun id hne => get?_append fun heq => hne (heq.symm.trans hid), e, hid ▸ he, fun hp => ?_⟩
    rcases hlast with rfl | hterminal
    · exact deliverySnapshot_attempted hu
    · exact nomatch hp.symm.trans hterminal

theorem Inv.recorded (h : Inv clock s) {busy : Option String}
    (hbusy : ∀ session ∈ busy, LateBoundary clock s.catalog.rows ⟨session, now⟩) :
    Inv clock (s.recorded clock entry attempt now floor busy).2 := by
  unfold Store.recorded
  split
  · exact h
  rename_i log hlog
  obtain ⟨hother, e, he, hlast⟩ := recordDelivery_row hlog
  refine h.change _ entry.id (fun id hne => ⟨hother id hne, ?_⟩) fun w hw => ⟨e, he, fun hp => ?_⟩
  · cases busy with
    | none => exact (Dict.get?_erase ..).trans (if_neg hne)
    | some session => exact Dict.get?_set_ne _ _ (Ne.symm hne)
  cases busy with
  | none => exact nomatch ((Dict.get?_erase ..).trans (if_pos rfl)).symm.trans hw
  | some session =>
    obtain rfl := Option.some.inj ((Dict.get?_set_self ..).symm.trans hw)
    exact ⟨hlast hp, hbusy session rfl⟩

theorem Inv.rebound (h : Inv clock s) {owner : Inbox.InboxOwner} : Inv clock (s.rebound entry owner now) := by
  unfold Store.rebound
  split
  · exact h
  rename_i log hlog
  have hother : ∀ id, id ≠ entry.id → (Inbox.current log).get? id = (Inbox.current s.log).get? id := by
    intro id hne
    simp only [Inbox.rebindEntry] at hlog
    split at hlog
    · cases hlog
      rfl
    rename_i u hu
    cases hlog
    exact get?_append fun heq => hne (heq.symm.trans (Inbox.rebindSnapshot_spec hu).1.id)
  exact h.change _ entry.id (fun id hne => ⟨hother id hne, (Dict.get?_erase ..).trans (if_neg hne)⟩)
    fun w hw => nomatch ((Dict.get?_erase ..).trans (if_pos rfl)).symm.trans hw

theorem Inv.posted (h : Inv clock s) {message : Inbox.InboxMessage} {entryId : String} {routing : Inbox.InboxRouting}
    {poster : Inbox.InboxPoster} : Inv clock (s.posted message entryId now routing poster).2 := by
  unfold Store.posted
  split
  · exact h
  rename_i hfresh
  split
  · exact h
  rename_i entry hentry
  have hid : entry.id = entryId := by
    unfold Inbox.createOperatorInboxEntry at hentry
    split at hentry
    · cases hentry
    · cases hentry
      rfl
  refine h.change s.waiting entryId (fun id hne => ⟨get?_append fun heq => hne (heq.symm.trans hid), rfl⟩)
    fun w hw => ?_
  obtain ⟨r, hr, hrid⟩ := (foldLog_isSome ..).mp (h.filed entryId w hw)
  exact absurd (List.any_eq_true.mpr ⟨r, hr, decide_eq_true hrid⟩) hfresh

theorem inv_exec (outside : Outside) (s : Store) (c : Command) (h : Inv clock s) (hc : clocked clock s c) :
    Inv clock (exec clock outside s c).2 := by
  cases c with
  | catalog c =>
    refine ⟨h.filed, h.attempted, fun id w entry hw hentry hp => ?_⟩
    exact (h.late id w entry hw hentry hp).exec
      (hc (id, w) (Dict.get?_eq_some.mp hw) (by simp [rowPending, show (Inbox.current s.log).get? id = some entry from hentry, hp]))
  | rows => exact h
  | briefGate session => exact h
  | current => exact h
  | post message entryId now routing poster => exact h.posted
  | submit session requestId text =>
    simp only [Delivery.exec, Store.submitted]
    split
    · exact ⟨h.filed, h.attempted, h.late⟩
    · exact ⟨h.filed, h.attempted, h.late⟩
    · exact ⟨h.filed, h.attempted, h.late⟩
  | reconcile session requestId =>
    simp only [Delivery.exec, Store.reconciled]
    split
    · exact h
    split
    · exact h
    split
    · exact ⟨h.filed, h.attempted, h.late⟩
    · exact h
  | record read entry attempt now floor busy =>
    refine h.recorded fun session hs e he => ?_
    cases hs
    exact hc e he
  | rebind entry owner now => exact h.rebound

end

/-- In every run whose commands meet the condition, every waiting row whose target is free is due. -/
def WakesKept (c : Catalog.Config) (rows : Rows) (log : InboxLog) (ok : Store → Command → Prop) : Prop :=
  ∀ w, Reachable (deliverySystem c rows log) (Pool.Issues (exec c.clock) ok) w → Addressed c.clock w.store →
    OwnersRun w.store → Drained c.clock w.store

def busyRow : TerminalCatalogEntry :=
  { Catalog.hostedRow with
    controlEndpoint := some "s1.sock"
    taskDocumentRef := some Catalog.workerSeat
    seatRole := some "worker"
    turnState := some .working
    turnStateChangedAt := some "2026-08-01T09:00:00+00:00" }

def oneBusy : Rows := Dict.empty.set "s1" busyRow

def queuedRow : OperatorInboxEntry where
  id := "m1"
  ts := "2026-08-01T09:30:00+00:00"
  state := .pending
  taskDocumentRef := some Catalog.workerSeat
  recipientRole := some .worker
  ask := "continue"
  response := ""
  createdAt := "2026-08-01T09:30:00+00:00"
  createdBy := "manager"
  createdVia := .chat

def settled : Outside where
  catalog
    | .snapshot _ => .ok ⟨.ready, .idle, .immediate, none, none, [], 4, []⟩
    | q => Catalog.calm q
  briefGate _ := none
  submit _ := .failed "no bridge" false
  reconcile _ := none

def sweepStart (seconds : Int) : Stamp := ⟨1785578400000000 + seconds * 1000000, some 0⟩

/-- A push is refused while a sweep that started at its own time finds the turn ended. -/
def refusedDuringSweep (seconds : Int) : List (PoolAction Call Outside) :=
  [.start (.catalog (.sweep false {} (sweepStart seconds))),
    .start (.deliver "m1" "2026-08-01T10:00:01+00:00" none { boundary := true } true)] ++
    (List.replicate 4 (.move 1 fun _ => settled) ++ [.move 0 fun _ => settled])

def drainSystem : System World (PoolAction Call Outside) := deliverySystem Catalog.plainConfig oneBusy [queuedRow]

def wakeConditions (w : World) (a : PoolAction Call Outside) : Prop :=
  w.Issues (exec Catalog.plainConfig.clock) (clocked Catalog.plainConfig.clock) a

instance (w : World) (a : PoolAction Call Outside) : Decidable (wakeConditions w a) :=
  inferInstanceAs (Decidable (Pool.Issues ..))

def wokenWorld : World := (checkedRun drainSystem wakeConditions drainSystem.init (refusedDuringSweep 5)).get (by decide +kernel)

def lostWorld : World := (runFrom drainSystem drainSystem.init (refusedDuringSweep 0)).get (by decide +kernel)

def rowOf (s : Store) (h : ((Inbox.current s.log).get? "m1").isSome) : OperatorInboxEntry := ((Inbox.current s.log).get? "m1").get h

def targetOf (s : Store) (h : (s.catalog.rows.get? "s1").isSome) : TerminalCatalogEntry := (s.catalog.rows.get? "s1").get h

theorem woken_free : Free wokenWorld.store "m1" (rowOf wokenWorld.store (by decide +kernel))
    ⟨"s1", "2026-08-01T10:00:01+00:00"⟩ (targetOf wokenWorld.store (by decide +kernel)) := ⟨rfl, rfl, rfl, rfl, rfl⟩

end AgentsRemember.Delivery
