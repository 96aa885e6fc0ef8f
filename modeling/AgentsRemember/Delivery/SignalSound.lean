import AgentsRemember.Delivery.DrainSound
import AgentsRemember.Delivery.Signals

/-!
# One signal per ended turn

A signal whose row was created is marked in the catalog, or its row still waits
for the marker. So no second row is created where the sweep's fold has every
waiting row of the signal as the pending row that the lookup finds, and no write
of the catalog takes a marker away or brings back what was signalled.
-/

namespace AgentsRemember.Delivery

open Lib
open Inbox (OperatorInboxEntry InboxOwner)
open Catalog (Rows)

/-! ## The condition of a command -/

def unmarked (parent : TaskHierarchy) (rows : Rows) : SignalKey → Bool
  | .turn session evidenceId =>
    (rows.get? session).any fun e => e.terminal.evidenceId = some evidenceId ∧ e.stateSignalEmittedFor ≠ some evidenceId
  | .idle session signature =>
    (rows.get? session).any fun e => e.compoundIdleEmittedFor ≠ some signature ∧
      ((compoundIdleSet parent rows (session, e)).map compoundIdleSignature) = some signature

def SignalStore.waits (s : SignalStore) (key : SignalKey) : Bool := s.awaiting.any fun p => p.1 = key

/-- The command unmarks no signal that has a row, none of which waits for its marker. -/
def KeepsMarks (c : SignalConfig) (s : SignalStore) (k : Catalog.Command) : Prop :=
  ∀ outside, ∀ key ∈ s.emitted, s.waits key = false → unmarked c.parent s.delivery.catalog.rows key = false →
    unmarked c.parent (Catalog.exec c.clock outside s.delivery.catalog k).2.rows key = false

/-- A row is created for a signal that the catalog shows unmarked, by a sweep in whose fold the waiting rows of the
signal are still its pending rows; and the catalog's writers keep marks. -/
def steady (c : SignalConfig) (s : SignalStore) : SignalCommand → Prop
  | .append key fold signal _ _ =>
    unmarked c.parent s.delivery.catalog.rows key = true ∧
      ∀ p ∈ s.awaiting, p.1 = key → (fold.get? p.2).any (coalesces signal) = true
  | .delivery (.catalog k) => KeepsMarks c s k
  | _ => True

/-- A row is created where the sweep finds none to renew. -/
def looked (_ : SignalStore) : SignalCommand → Prop
  | .append _ fold signal _ _ => findCoalescible fold signal = none
  | _ => True

/-! ## Markers and waiting rows -/

structure Signalled (c : SignalConfig) (s : SignalStore) : Prop where
  once : s.emitted.Nodup
  marked : ∀ key ∈ s.emitted, s.waits key = true ∨ unmarked c.parent s.delivery.catalog.rows key = false

def signalReliance (c : SignalConfig) : Rely SignalCommand SignalCommand.Answer SignalStore SignalOutside where
  exec := signalExec c.clock
  ext _ _ := True
  inv := Signalled c
  ok := looked

section
variable {c : SignalConfig} {s : SignalStore} {key : SignalKey}

theorem unmarked_marked {parent : TaskHierarchy} {rows : Rows} {session : String} {e : Catalog.TerminalCatalogEntry}
    {u : Catalog.Update} (h : markedKey (.upsert session e u) = some key) :
    unmarked parent (rows.set session (u.apply e)) key = false := by
  cases u <;> cases h
  · simp [unmarked, Catalog.Update.apply]
  · simp [unmarked, Catalog.Update.apply]

theorem Signalled.delivered (h : Signalled c s) {outside : Outside} {k : Command} (hk : steady c s (.delivery k)) :
    Signalled c (s.delivered c.clock outside k).2 := by
  refine ⟨h.once, fun key hkey => ?_⟩
  by_cases hmarked : k.markedKey = some key
  · right
    cases k with
    | catalog k =>
      cases k with
      | upsert session copy u => exact unmarked_marked hmarked
      | _ => cases hmarked
    | _ => cases hmarked
  have hwaits : s.waits key = true → (s.delivered c.clock outside k).2.waits key = true := by
    intro hw
    obtain ⟨p, hp, hkey⟩ := List.any_eq_true.mp hw
    obtain rfl := of_decide_eq_true hkey
    exact List.any_eq_true.mpr ⟨p, List.mem_filter.mpr ⟨hp, decide_eq_true (Ne.symm hmarked)⟩, hkey⟩
  by_cases hw : s.waits key = true
  · exact .inl (hwaits hw)
  have hunmarked := (h.marked key hkey).resolve_left hw
  right
  cases k with
  | catalog k => exact hk outside.catalog key hkey (by simpa using hw) hunmarked
  | post message entryId now routing poster =>
    simp only [SignalStore.delivered, exec, Store.posted]
    split
    · exact hunmarked
    · split <;> exact hunmarked
  | submit session requestId text =>
    simp only [SignalStore.delivered, exec, Store.submitted]
    split <;> exact hunmarked
  | reconcile session requestId =>
    simp only [SignalStore.delivered, exec, Store.reconciled]
    split
    · exact hunmarked
    split
    · exact hunmarked
    · split <;> exact hunmarked
  | record read entry attempt now floor busy =>
    simp only [SignalStore.delivered, exec, Store.recorded]
    split <;> exact hunmarked
  | rebind entry owner now =>
    simp only [SignalStore.delivered, exec, Store.rebound]
    split <;> exact hunmarked
  | rows => exact hunmarked
  | briefGate session => exact hunmarked
  | current => exact hunmarked

variable {now : String} {fold : Dict String OperatorInboxEntry} {signal : OwnerSignal}

theorem posted_catalog {t : Store} {message : Inbox.InboxMessage} {entryId : String} {routing : Inbox.InboxRouting}
    {poster : Inbox.InboxPoster} : (t.posted message entryId now routing poster).2.catalog = t.catalog := by
  unfold Store.posted
  split
  · rfl
  · split <;> rfl

theorem findCoalescible_of_waits (hw : s.waits key = true)
    (hfold : ∀ p ∈ s.awaiting, p.1 = key → (fold.get? p.2).any (coalesces signal) = true) :
    findCoalescible fold signal ≠ none := by
  obtain ⟨p, hp, hkey⟩ := List.any_eq_true.mp hw
  obtain ⟨row, hrow, hcoalesces⟩ := (Option.any_eq_true _ _).mp (hfold p hp (of_decide_eq_true hkey))
  intro hnone
  exact List.find?_eq_none.mp hnone row (Dict.mem_values.mpr ⟨p.2, hrow⟩) hcoalesces

theorem Signalled.appended (h : Signalled c s) {owner : InboxOwner} {ulid : String}
    (hlooked : findCoalescible fold signal = none) (hc : steady c s (.append key fold signal owner now)) :
    Signalled c (s.appended key signal owner now ulid).2 := by
  obtain ⟨hunmarked, hfold⟩ := hc
  have hnew : key ∉ s.emitted := by
    intro hkey
    rcases h.marked key hkey with hw | hmarked
    · exact findCoalescible_of_waits hw hfold hlooked
    · exact absurd (hmarked.symm.trans hunmarked) nofun
  unfold SignalStore.appended
  split
  · exact h
  rename_i entry delivery hposted
  have hrows : delivery.catalog = s.delivery.catalog :=
    (congrArg (fun r => r.2.catalog) hposted).symm.trans posted_catalog
  refine ⟨List.nodup_cons.mpr ⟨hnew, h.once⟩, fun key' hkey' => ?_⟩
  rcases List.mem_cons.mp hkey' with rfl | hkey'
  · exact .inl (by simp [SignalStore.waits])
  rw [hrows]
  refine (h.marked key' hkey').imp_left fun hw => ?_
  simp only [SignalStore.waits, List.any_cons, Bool.or_eq_true]
  exact .inr hw

theorem Signalled.withLog (h : Signalled c s) (log : Inbox.InboxLog) : Signalled c (s.withLog log) := ⟨h.once, h.marked⟩

theorem signalReliance_kept (c : SignalConfig) : (signalReliance c).Kept (steady c) where
  refl _ := trivial
  trans _ _ _ _ _ := trivial
  ext _ _ _ _ _ _ := trivial
  inv outside s k h hlooked hc := by
    cases k with
    | delivery k => exact h.delivered hc
    | owner session => exact h
    | append key fold signal owner now => exact h.appended hlooked hc
    | renew row renewal now =>
      simp only [signalReliance, signalExec]
      split
      · exact h
      · exact h.withLog _
    | transition entryId now t =>
      simp only [signalReliance, signalExec]
      split
      · exact h
      · exact h.withLog _
    | delete entryId => exact h.withLog _
    | compact now => exact h.withLog _

/-! ## The sweep's commands -/

theorem inDelivery_safe {α : Type} (t : DeliveryScript α) : (inDelivery t).Safe (signalReliance c) (fun _ _ => True) s :=
  Script.safe_embed (fun _ _ => trivial) (fun _ _ => trivial) t

theorem deliverSignal_safe (now : String) (fold : SweepFold) (written : Option OperatorInboxEntry) :
    (deliverSignal c now fold written).Safe (signalReliance c) (fun _ _ => True) s := by
  cases written with
  | none => exact trivial
  | some entry => exact Script.Safe.bind _ ((inDelivery_safe _).weaken (fun _ _ _ => trivial) _)

theorem postOwnerSignal_safe (key : SignalKey) (owner : InboxOwner) (signal : OwnerSignal) (now : String) (fold : SweepFold) :
    (postOwnerSignal c key owner signal now fold).Safe (signalReliance c) (fun _ _ => True) s := by
  unfold postOwnerSignal
  split
  · exact Script.Safe.bind (ask _) fun s' _ _ => ⟨trivial, fun _ => deliverSignal_safe now fold _⟩
  · rename_i hnone
    exact Script.Safe.bind (ask _) fun s' _ _ => ⟨hnone, fun _ => deliverSignal_safe now fold _⟩

theorem emitStateSignal_safe (session sourceId now : String) (fold : SweepFold) :
    (emitStateSignal c session sourceId now fold).Safe (signalReliance c) (fun _ _ => True) s := by
  unfold emitStateSignal
  refine Script.Safe.bind (ask _) fun s' _ _ => ⟨trivial, fun outside => ?_⟩
  simp only [Script.Safe]
  split
  · exact trivial
  split
  · exact trivial
  · exact trivial
  split
  · exact trivial
  refine Script.Safe.bind (ask _) fun s' _ _ => ⟨trivial, fun outside => ?_⟩
  simp only [Script.Safe]
  split
  · exact trivial
  split
  · exact trivial
  · refine Script.Safe.bind _ ((postOwnerSignal_safe _ _ _ now fold).weaken (fun fold' s' _ => ?_) _)
    exact Script.Safe.bind _ ((inDelivery_safe _).weaken (fun _ _ _ => trivial) _)

theorem emitCompoundIdle_safe (finding : AgentNotifierFinding) (session now : String) (fold : SweepFold) :
    (emitCompoundIdle c finding session now fold).Safe (signalReliance c) (fun _ _ => True) s := by
  unfold emitCompoundIdle
  refine Script.Safe.bind (ask _) fun s' _ _ => ⟨trivial, fun outside => ?_⟩
  simp only [Script.Safe]
  split
  · exact trivial
  split
  · exact trivial
  refine Script.Safe.bind (ask _) fun s' _ _ => ⟨trivial, fun outside => ?_⟩
  simp only [Script.Safe]
  split
  · exact trivial
  split
  · exact trivial
  · refine Script.Safe.bind _ ((postOwnerSignal_safe _ _ _ now fold).weaken (fun fold' s' _ => ?_) _)
    exact Script.Safe.bind _ ((inDelivery_safe _).weaken (fun _ _ _ => trivial) _)

theorem actOnFindings_safe (now : String) (findings : List AgentNotifierFinding) : ∀ {s : SignalStore} (fold : SweepFold),
    (actOnFindings c now findings fold).Safe (signalReliance c) (fun _ _ => True) s := by
  induction findings with
  | nil => exact fun _ => trivial
  | cons finding rest ih =>
    intro s fold
    have hact : (actOnFinding c now fold finding).Safe (signalReliance c) (fun _ _ => True) s := by
      unfold actOnFinding
      split
      · split
        · exact emitStateSignal_safe _ _ now fold
        · exact emitCompoundIdle_safe finding _ now fold
      · exact trivial
    exact Script.Safe.bind _ (hact.weaken (fun fold' _ _ => ih fold') _)

theorem signalJob_safe (call : SignalCall) : Job.Safe (signalReliance c) (call.job c) s := by
  cases call with
  | delivery call => exact Job.safe_embed (fun _ _ => trivial) _
  | sweep now =>
    refine Job.safe_plain (Script.Safe.bind (ask _) fun s' _ _ => ⟨trivial, fun _ => ?_⟩)
    refine Script.Safe.bind (ask _) fun s' _ _ => ⟨trivial, fun _ => ?_⟩
    simp only [Script.Safe]
    split
    · exact trivial
    · exact Script.Safe.bind _ ((actOnFindings_safe now _ _).weaken (fun _ _ _ => trivial) _)
  | transition entryId now t => exact Job.safe_plain fun s' _ _ => ⟨trivial, fun _ => trivial⟩
  | delete entryId => exact Job.safe_plain fun s' _ _ => ⟨trivial, fun _ => trivial⟩
  | compact now => exact Job.safe_plain fun s' _ _ => ⟨trivial, fun _ => trivial⟩

end

/-- In every state of every run whose commands meet the condition, no signal has had two rows. -/
def SignalledOnce (c : SignalConfig) (rows : Rows) (ok : SignalStore → SignalCommand → Prop) : Prop :=
  ∀ w, Reachable (signalSystem c rows) (Pool.Issues (signalExec c.clock) ok) w → w.store.emitted.Nodup

/-- **One state signal per ended turn**, and one per idle episode. -/
theorem signalled_once (c : SignalConfig) (rows : Rows) : SignalledOnce c rows (steady c) := by
  intro w hw
  have h : Signalled c w.store :=
    Pool.steps_safe (signalReliance_kept c) (fun call _ _ => signalJob_safe call) hw ⟨List.nodup_nil, fun _ h => nomatch h⟩
  exact h.once

/-! ## A sweep that dies after the row landed -/

noncomputable instance (c : SignalConfig) (s : SignalStore) : (k : Catalog.Command) → Decidable (KeepsMarks c s k)
  | .get _ | .list _ | .ask _ => .isTrue fun _ _ _ _ h => h
  | .openTerminal _ _ => Classical.propDecidable _
  | .mutate session m => decidable_of_iff (∀ key ∈ s.emitted, s.waits key = false →
      unmarked c.parent s.delivery.catalog.rows key = false →
      unmarked c.parent (s.delivery.catalog.mutate c.clock session m).2.rows key = false)
      ⟨fun h _ => h, fun h => h Catalog.calm⟩
  | .upsert session copy u => decidable_of_iff (∀ key ∈ s.emitted, s.waits key = false →
      unmarked c.parent s.delivery.catalog.rows key = false →
      unmarked c.parent (s.delivery.catalog.rows.set session (u.apply copy)) key = false)
      ⟨fun h _ => h, fun h => h Catalog.calm⟩
  | .compact now => decidable_of_iff (∀ key ∈ s.emitted, s.waits key = false →
      unmarked c.parent s.delivery.catalog.rows key = false →
      unmarked c.parent (s.delivery.catalog.compact c.clock now).rows key = false)
      ⟨fun h _ => h, fun h => h Catalog.calm⟩

noncomputable instance (c : SignalConfig) (s : SignalStore) : (k : SignalCommand) → Decidable (steady c s k)
  | .append key fold signal _ _ => inferInstanceAs (Decidable (unmarked c.parent s.delivery.catalog.rows key = true ∧
      ∀ p ∈ s.awaiting, p.1 = key → (fold.get? p.2).any (coalesces signal) = true))
  | .delivery (.catalog k) => inferInstanceAs (Decidable (KeepsMarks c s k))
  | .delivery .rows | .delivery (.briefGate _) | .delivery .current | .delivery (.post ..) | .delivery (.submit ..)
  | .delivery (.reconcile ..) | .delivery (.record ..) | .delivery (.rebind ..) | .owner _ | .renew .. | .transition ..
  | .delete _ | .compact _ => .isTrue trivial

def masterDocument : Inbox.TaskDocumentRef := ⟨"repo", "tasks/master.md"⟩

def signalConfig : SignalConfig where
  toConfig := Catalog.plainConfig
  parent document := if document = Catalog.workerSeat then some masterDocument else none

def endedTurn : Rows :=
  (Dict.empty.set "s1"
    { busyRow with
      turnState := some .turnEnded
      terminal := { outcome := some .completed, evidenceId := some "turn-9" } }).set "m1"
    { busyRow with
      taskDocumentRef := some masterDocument
      seatRole := some "manager"
      turnState := some .awaitingInput }

def takingAs (ulid : String) : SignalOutside where
  delivery :=
    { catalog := Catalog.calm
      briefGate := fun _ => none
      submit := fun _ => .receipt
        { requestId := ""
          acceptance := .immediate
          submittedAt := "2026-08-01T10:00:00+00:00" }
      reconcile := fun _ => none }
  ulid := ulid
  owner _ := some ⟨some .manager, some masterDocument, some "m1", none⟩

def sweeping (i moves : Nat) (ulid : String) : List (PoolAction SignalCall SignalOutside) :=
  .start (.sweep "2026-08-01T10:00:00+00:00") :: List.replicate moves (.move i fun _ => takingAs ulid)

def endedSystem : System SignalWorld (PoolAction SignalCall SignalOutside) := signalSystem signalConfig endedTurn

def steadyStep (w : SignalWorld) (a : PoolAction SignalCall SignalOutside) : Prop :=
  w.Issues (signalExec signalConfig.clock) (steady signalConfig) a

noncomputable instance (w : SignalWorld) (a : PoolAction SignalCall SignalOutside) : Decidable (steadyStep w a) :=
  inferInstanceAs (Decidable (Pool.Issues ..))

def sweptTwice : List (PoolAction SignalCall SignalOutside) :=
  sweeping 0 11 "row-1" ++ List.replicate 9 (.move 0 fun _ => takingAs "row-2") ++ sweeping 1 2 "row-3"

def diedBeforeMarker : List (PoolAction SignalCall SignalOutside) := sweeping 0 9 "row-1" ++ sweeping 1 5 "row-2"

noncomputable def sweptWorld : SignalWorld :=
  (checkedRun endedSystem steadyStep endedSystem.init sweptTwice).get (by decide +kernel)

def diedWorld : SignalWorld := (runFrom endedSystem endedSystem.init diedBeforeMarker).get (by decide +kernel)

theorem signalled_once_swept : sweptWorld.store.emitted.length = 2 ∧ sweptWorld.store.emitted.Nodup :=
  ⟨by decide +kernel, signalled_once signalConfig endedTurn sweptWorld (steps_of_checkedRun (Option.some_get _).symm)⟩

/-- The turn has a row that landed and a second one. -/
theorem signalled_twice : ¬ ∀ c rows, SignalledOnce c rows fun _ _ => True := by
  intro h
  have hreachable : Reachable endedSystem (Pool.Issues (signalExec signalConfig.clock) fun _ _ => True) diedWorld :=
    steps_of_runFrom (fun i _ w => Pool.issues_of_forall (fun _ _ => trivial) w i) (Option.some_get _).symm
  exact absurd (h signalConfig endedTurn diedWorld hreachable) (by decide +kernel)

end AgentsRemember.Delivery
