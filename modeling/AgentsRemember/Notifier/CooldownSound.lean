import Mathlib.Data.String.Basic
import AgentsRemember.Inbox.Records

/-!
# Signals and their cooldown

The log of the signals that were posted to an owner. The cooldown reads the
signal whose stamp is the greatest text; a compaction drops the records that are
older than the retention window.
-/

namespace AgentsRemember.Notifier

open Lib Inbox

inductive AgentNotifierSignalState
  | sent
  deriving DecidableEq

structure AgentNotifierSignalRecord where
  schemaVersion : String := "1.0"
  schema : String := "ar-agent-notifier-signal/v2"
  id : String
  ts : String
  state : AgentNotifierSignalState := .sent
  targetAgentId : Option String := none
  targetLifecycleId : Option String := none
  targetRole : Option AgentRole := none
  taskDocumentRef : Option TaskDocumentRef := none
  seatRole : Option String := none
  findingKind : String
  detail : String
  deliveryState : InboxDeliveryState

structure AgentNotifierSignalTarget where
  agentId : Option String := none
  lifecycleId : Option String := none
  role : Option AgentRole := none
  taskDocumentRef : Option TaskDocumentRef := none
  seatRole : Option String := none

structure AgentNotifierSignalKey where
  target : AgentNotifierSignalTarget
  findingKind : String
  detail : String

abbrev SignalLog := List AgentNotifierSignalRecord

inductive CooldownFault
  | floor (message : String)
  | type (message : String)
  deriving DecidableEq

def naiveAware : String := "can't subtract offset-naive and offset-aware datetimes"

def AgentNotifierSignalKey.matches (signal : AgentNotifierSignalKey) (record : AgentNotifierSignalRecord) : Bool :=
  decide (record.state = .sent) && decide (record.targetAgentId = signal.target.agentId) &&
    decide (record.targetLifecycleId = signal.target.lifecycleId) && decide (record.targetRole = signal.target.role) &&
    decide (record.taskDocumentRef = signal.target.taskDocumentRef) && decide (record.seatRole = signal.target.seatRole) &&
    decide (record.findingKind = signal.findingKind) && decide (record.detail = signal.detail)

def lastSent (signal : AgentNotifierSignalKey) (records : SignalLog) : Option AgentNotifierSignalRecord :=
  firstMaxOn AgentNotifierSignalRecord.ts (records.filter signal.matches)

def elapsedWithin (clock : Clock) (previous : Option AgentNotifierSignalRecord) (now : Stamp) (floor : Int) :
    Except CooldownFault Bool :=
  match previous with
  | none => .ok false
  | some record =>
    match clock.parse record.ts with
    | none => .ok false
    | some ts =>
      match Stamp.sub? now ts with
      | none => .error (.type naiveAware)
      | some elapsed => .ok (decide (elapsed < floor))

def inCooldown (clock : Clock) (signal : AgentNotifierSignalKey) (now : Stamp) (cooldown : Int) (records : SignalLog) :
    Except CooldownFault Bool :=
  match requireRedeliveryFloor (some cooldown) "agent-notifier signal cooldown" with
  | .error message => .error (.floor message)
  | .ok floor => elapsedWithin clock (lastSent signal records) now floor

def keepSignal (clock : Clock) (cutoff : Stamp) (record : AgentNotifierSignalRecord) : Bool :=
  match clock.parse record.ts with
  | none => true
  | some ts => ((Stamp.lt? ts cutoff).map not).getD true

structure SignalCompaction where
  log : SignalLog
  removed : Nat
  kept : SignalLog

def compact (clock : Clock) (log : SignalLog) (now : Stamp) (retain : Int) : SignalCompaction :=
  let kept := log.filter (keepSignal clock (now.minus retain))
  let removed := log.length - kept.length
  ⟨if removed = 0 then log else kept, removed, kept⟩

theorem compact_log (clock : Clock) (log : SignalLog) (now : Stamp) (retain : Int) :
    (compact clock log now retain).log = log.filter (keepSignal clock (now.minus retain)) := by
  unfold compact
  dsimp only
  split
  · rename_i h
    have hle := List.length_filter_le (keepSignal clock (now.minus retain)) log
    exact (List.Sublist.eq_of_length List.filter_sublist (by omega)).symm
  · rfl

theorem keepSignal_false {clock : Clock} {now : Stamp} {retain : Int} {record : AgentNotifierSignalRecord} :
    keepSignal clock (now.minus retain) record = false ↔
      ∃ ts age, clock.parse record.ts = some ts ∧ Stamp.sub? now ts = some age ∧ retain < age := by
  unfold keepSignal
  cases hparse : clock.parse record.ts with
  | none => simp
  | some ts =>
    simp only [Stamp.lt?, Stamp.sub?_minus]
    cases hsub : Stamp.sub? ts now with
    | none =>
      simp only [Option.map_none, Option.getD_none, Bool.true_eq_false, false_iff, not_exists, not_and]
      intro ts' age hts hage
      cases hts
      exact absurd (hsub.symm.trans (Stamp.sub?_symm hage)) (by simp)
    | some d =>
      have hage := Stamp.sub?_symm hsub
      simp only [Option.map_some, Option.getD_some, Bool.not_eq_false', decide_eq_true_eq]
      constructor
      · exact fun h => ⟨ts, -d, rfl, hage, by omega⟩
      intro hex
      obtain ⟨ts', age, hts, hage', hlt⟩ := hex
      cases hts
      rw [hage, Option.some.injEq] at hage'
      omega

/-! ## A compaction and the cooldown

The signal the cooldown reads is the greatest stamp as a text. Where a compaction
keeps it, nothing changes; where it drops it, the cooldown reads the greatest of
what is left, and the answer is the same exactly where that one is over, too.
-/

def IsOver (clock : Clock) (now : Stamp) (cooldown : Int) (record : AgentNotifierSignalRecord) : Prop :=
  ∀ ts, clock.parse record.ts = some ts → ∃ age, Stamp.sub? now ts = some age ∧ cooldown ≤ age

def IsGreatest (signal : AgentNotifierSignalKey) (records : SignalLog) (record : AgentNotifierSignalRecord) : Prop :=
  IsFirstMax AgentNotifierSignalRecord.ts (records.filter signal.matches) record

/-- Behind a record that is too old to be kept, the greatest of the others is over. -/
def NothingBehind (clock : Clock) (log appended : SignalLog) (now : Stamp) (retain cooldown : Int) : Prop :=
  ∀ signal old next, IsGreatest signal (log ++ appended) old → keepSignal clock (now.minus retain) old = false →
    IsGreatest signal (log.filter (keepSignal clock (now.minus retain)) ++ appended) next →
    IsOver clock now cooldown next

section
variable {clock : Clock} {signal : AgentNotifierSignalKey} {log appended : SignalLog} {now later : Stamp}
  {retain cooldown : Int} {record : AgentNotifierSignalRecord}

theorem lastSent_eq_some {records : SignalLog} : lastSent signal records = some record ↔ IsGreatest signal records record :=
  firstMaxOn_eq_some _

theorem filter_comm {α : Type} (p q : α → Bool) (l : List α) : (l.filter p).filter q = (l.filter q).filter p := by
  rw [List.filter_filter, List.filter_filter]
  simp only [Bool.and_comm]

variable {keep : AgentNotifierSignalRecord → Bool}

theorem IsGreatest.kept (h : IsGreatest signal (log ++ appended) record) (hk : keep record = true) :
    IsGreatest signal (log.filter keep ++ appended) record := by
  unfold IsGreatest at h ⊢
  rw [List.filter_append, isFirstMax_append] at h ⊢
  rw [filter_comm]
  rcases h with ⟨hlog, hrest⟩ | ⟨hlog, hrest⟩
  · left
    refine ⟨?_, hrest⟩
    rw [← firstMaxOn_eq_some] at hlog ⊢
    exact firstMaxOn_filter _ keep hlog hk
  · right
    exact ⟨fun x hx => hlog x (List.mem_filter.mp hx).1, hrest⟩

theorem lastSent_none (h : lastSent signal (log ++ appended) = none) :
    lastSent signal (log.filter keep ++ appended) = none := by
  rw [lastSent, firstMaxOn_eq_none, List.filter_append, List.append_eq_nil_iff] at h ⊢
  refine ⟨?_, h.2⟩
  rw [filter_comm, h.1]
  rfl

/-! ## What it answers -/

theorem elapsedWithin_of_over (h : IsOver clock now cooldown record) (hl : Stamp.lt? later now = some false) :
    elapsedWithin clock (some record) later cooldown = .ok false := by
  unfold elapsedWithin
  dsimp only
  cases hparse : clock.parse record.ts with
  | none => rfl
  | some ts =>
    obtain ⟨age, hage, hle⟩ := h ts hparse
    obtain ⟨d, hd, hneg⟩ := Option.map_eq_some_iff.mp hl
    have hlate : 0 ≤ d := by simpa using hneg
    dsimp only
    rw [Stamp.sub?_trans hd hage]
    dsimp only
    rw [decide_eq_false (by omega)]

theorem isOver_of_elapsedWithin (h : elapsedWithin clock (some record) now cooldown = .ok false) :
    IsOver clock now cooldown record := by
  intro ts hparse
  rw [elapsedWithin, hparse] at h
  dsimp only at h
  cases hsub : Stamp.sub? now ts with
  | none =>
    rw [hsub] at h
    cases h
  | some age =>
    rw [hsub] at h
    exact ⟨age, rfl, by simpa using h⟩

theorem isOver_of_dropped (hw : cooldown ≤ retain) (h : keepSignal clock (now.minus retain) record = false) :
    IsOver clock now cooldown record := by
  obtain ⟨ts, age, hparse, hage, hlt⟩ := keepSignal_false.mp h
  intro ts' hparse'
  rw [hparse] at hparse'
  cases hparse'
  exact ⟨age, hage, by omega⟩

theorem lt?_self (now : Stamp) : Stamp.lt? now now = some false := by
  rw [Stamp.lt?, Stamp.sub?_self]
  rfl

theorem inCooldown_of_floor (h : minRedeliveryInterval ≤ cooldown) (records : SignalLog) :
    inCooldown clock signal later cooldown records = elapsedWithin clock (lastSent signal records) later cooldown := by
  rw [inCooldown, requireRedeliveryFloor, if_neg (by omega)]

theorem inCooldown_below_floor (h : ¬ minRedeliveryInterval ≤ cooldown) (records records' : SignalLog) :
    inCooldown clock signal later cooldown records = inCooldown clock signal later cooldown records' := by
  unfold inCooldown
  rw [requireRedeliveryFloor, if_pos (by omega)]

theorem elapsedWithin_behind (hw : cooldown ≤ retain) (hbehind : NothingBehind clock log appended now retain cooldown)
    (hl : Stamp.lt? later now = some false) :
    elapsedWithin clock (lastSent signal (log.filter (keepSignal clock (now.minus retain)) ++ appended)) later cooldown =
      elapsedWithin clock (lastSent signal (log ++ appended)) later cooldown := by
  cases hold : lastSent signal (log ++ appended) with
  | none => rw [lastSent_none hold]
  | some old =>
    cases hkeep : keepSignal clock (now.minus retain) old with
    | true => rw [lastSent_eq_some.mpr ((lastSent_eq_some.mp hold).kept hkeep)]
    | false =>
      rw [elapsedWithin_of_over (isOver_of_dropped hw hkeep) hl]
      cases hnext : lastSent signal (log.filter (keepSignal clock (now.minus retain)) ++ appended) with
      | none => rfl
      | some next =>
        exact elapsedWithin_of_over (hbehind signal old next (lastSent_eq_some.mp hold) hkeep (lastSent_eq_some.mp hnext)) hl

end

/-- **Compaction and the cooldown.** The answers are those without the compaction, for every signal and from then
on, exactly where nothing behind a dropped record is left that still counts. -/
theorem compaction_unnoticed (clock : Clock) (log appended : SignalLog) (now : Stamp) (retain cooldown : Int)
    (hwindow : cooldown ≤ retain) :
    (∀ signal later, Stamp.lt? later now = some false →
      inCooldown clock signal later cooldown ((compact clock log now retain).log ++ appended) =
        inCooldown clock signal later cooldown (log ++ appended)) ↔
    (minRedeliveryInterval ≤ cooldown → NothingBehind clock log appended now retain cooldown) := by
  rw [compact_log]
  constructor
  · intro h hfloor signal old next hold hdropped hnext
    have hsame := h signal now (lt?_self now)
    rw [inCooldown_of_floor hfloor, inCooldown_of_floor hfloor, lastSent_eq_some.mpr hold, lastSent_eq_some.mpr hnext,
      elapsedWithin_of_over (isOver_of_dropped hwindow hdropped) (lt?_self now)] at hsame
    exact isOver_of_elapsedWithin hsame
  intro hbehind signal later hl
  by_cases hfloor : minRedeliveryInterval ≤ cooldown
  · rw [inCooldown_of_floor hfloor, inCooldown_of_floor hfloor]
    exact elapsedWithin_behind hwindow (hbehind hfloor) hl
  · exact inCooldown_below_floor hfloor _ _

/-! ## A stamp without an offset -/

def deadWorker : AgentNotifierSignalKey := ⟨{ agentId := some "manager-1" }, "pane-dead", "worker-1"⟩

def sentAt (id ts : String) : AgentNotifierSignalRecord :=
  { id := id
    ts := ts
    targetAgentId := some "manager-1"
    findingKind := "pane-dead"
    detail := "worker-1"
    deliveryState := .queued }

def legacyLog : SignalLog := [sentAt "S1" "2026-07-01T00:00:00", sentAt "S2" "2026-08-01T11:00:00+00:00"]

def noon : Stamp := ⟨1785585600000000, some 0⟩

theorem one_zone_unnoticed :
    inCooldown pythonClock deadWorker noon 900000000
        ((compact pythonClock [sentAt "S1" "2026-08-01T11:00:00+00:00"] noon 900000000).log ++ []) =
      inCooldown pythonClock deadWorker noon 900000000 ([sentAt "S1" "2026-08-01T11:00:00+00:00"] ++ []) := by
  refine (compaction_unnoticed pythonClock [sentAt "S1" "2026-08-01T11:00:00+00:00"] [] noon 900000000 900000000
    (by decide)).mpr (fun _ signal old next _ _ hnext => ?_) deadWorker noon (lt?_self noon)
  have hnil : [sentAt "S1" "2026-08-01T11:00:00+00:00"].filter (keepSignal pythonClock (noon.minus 900000000)) = [] := by
    decide +kernel
  rw [hnil] at hnext
  obtain ⟨s, t, hs, -, -⟩ := hnext
  cases s <;> cases hs

theorem compaction_noticed : ¬ ∀ (log appended : SignalLog) (now : Stamp) (retain cooldown : Int), cooldown ≤ retain →
    ∀ signal later, Stamp.lt? later now = some false →
      inCooldown pythonClock signal later cooldown ((compact pythonClock log now retain).log ++ appended) =
        inCooldown pythonClock signal later cooldown (log ++ appended) := by
  intro h
  have hsame := h legacyLog [] noon 900000000 900000000 (by decide) deadWorker noon (lt?_self noon)
  revert hsame
  decide +kernel

end AgentsRemember.Notifier
