import Mathlib.Data.List.Sort
import Mathlib.Data.String.Basic
import AgentsRemember.Inbox.Records

/-!
# The inbox log

The operations that read the log and write it under one lock. The log is the
list of its rows; an operation gives the log it leaves. A compaction keeps or
drops whole ids.
-/

namespace AgentsRemember.Inbox

open Lib

abbrev InboxLog := List OperatorInboxEntry

def current (log : InboxLog) : Dict String OperatorInboxEntry := foldOperatorInboxEntries log

def noEntry (id : String) : String := s!"no operator inbox entry {textRepr id}"

def transition (log : InboxLog) (entryId : String) (t : OperatorInboxEntry → Option OperatorInboxEntry) :
    Except String InboxLog :=
  match (current log).get? entryId with
  | none => .error (noEntry entryId)
  | some entry =>
    match t entry with
    | none => .ok log
    | some updated => .ok (log ++ [updated])

def transitionLoop (now : String) : Dict String OperatorInboxEntry → InboxLog → List (String × Transition) →
    Except String InboxLog
  | _, appended, [] => .ok appended
  | cur, appended, (entryId, t) :: rest =>
    match cur.get? entryId with
    | none => .error (noEntry entryId)
    | some entry =>
      match t.apply now entry with
      | none => transitionLoop now cur appended rest
      | some updated => transitionLoop now (cur.set entryId updated) (appended ++ [updated]) rest

def transitionMany (log : InboxLog) (now : String) (transitions : List (String × Transition)) : Except String InboxLog :=
  match transitionLoop now (current log) [] transitions with
  | .error e => .error e
  | .ok appended => .ok (log ++ appended)

def consume (log : InboxLog) (entryId now consumedBy : String) (consumedVia : OperatorInboxVia) : Except String InboxLog :=
  match (current log).get? entryId with
  | none => .error (noEntry entryId)
  | some entry =>
    if entry.terminal then .ok log
    else match consumeOperatorInboxEntry entry now consumedBy consumedVia with
      | none => .ok log
      | some consumed => .ok (log ++ [consumed])

/-! ## Writers that read first

`seen` is the row in the fold their caller has, however old; they append to the
log there is now. -/

def recordDelivery (clock : Clock) (log : InboxLog) (seen : Option OperatorInboxEntry) (entryId : String)
    (attempt : DeliveryAttempt) (now : String) (floor : Option Int) : Except String InboxLog :=
  match seen with
  | none => .error (noEntry entryId)
  | some entry =>
    if deliveryLands entry attempt then transition log entryId ((Transition.land attempt).apply now)
    else match deliverySnapshot clock entry attempt now floor with
      | .error e => .error e
      | .ok delivered => .ok (log ++ [delivered])

def rebindEntry (log : InboxLog) (seen : Option OperatorInboxEntry) (entryId : String) (owner : InboxOwner)
    (now : String) : Except String InboxLog :=
  match seen with
  | none => .error (noEntry entryId)
  | some entry =>
    match rebindSnapshot entry owner now with
    | none => .ok log
    | some rebound => .ok (log ++ [rebound])

def recordAdapterCompletion (log : InboxLog) (seen : Option OperatorInboxEntry) (entryId : String)
    (completion : AdapterCompletion) (now : String) : Except String InboxLog :=
  match seen with
  | none => .error (noEntry entryId)
  | some entry => .ok (log ++ [completionSnapshot entry completion now])

def renew (log : InboxLog) (seen : Option OperatorInboxEntry) (entryId : String) (renewal : InboxRenewal)
    (now : String) : Except String InboxLog :=
  match seen with
  | none => .error (noEntry entryId)
  | some entry =>
    match renewSnapshot entry renewal now with
    | none => .ok log
    | some renewed => .ok (log ++ [renewed])

def delete (log : InboxLog) (entryId : String) : InboxLog := log.filter fun record => record.id ≠ entryId

def deleteByGate (log : InboxLog) (gateId : String) : InboxLog := log.filter fun record => record.gateId ≠ some gateId

/-! ## Retention -/

def inboxTerminalMarkerRetention : Int := 48 * 60 * 60 * 1000000

def inboxMaxCurrentRows : Nat := 500

def keepInboxEntry (clock : Clock) (entry : OperatorInboxEntry) (now : Int) : Bool :=
  let young (stamp : Option String) : Bool :=
    match ageMicros clock.parse (if truthy stamp then stamp.getD "" else entry.createdAt) now with
    | none => true
    | some age => age ≤ inboxTerminalMarkerRetention
  match entry.state with
  | .ladderResolved => false
  | .pending => true
  | .consumed => young entry.consumedAt
  | _ => young entry.terminalAt

def newestFirst (rows : List OperatorInboxEntry) : List OperatorInboxEntry :=
  rows.insertionSort fun a b => b.createdAt ≤ a.createdAt

def inboxKeepIds (clock : Clock) (cur : Dict String OperatorInboxEntry) (now : Int) : List String :=
  let kept := cur.values.filter fun entry => keepInboxEntry clock entry now
  let selected :=
    if kept.length > inboxMaxCurrentRows then
      let pending := (newestFirst (kept.filter fun entry => !entry.terminal)).take inboxMaxCurrentRows
      let terminal := newestFirst (kept.filter fun entry => entry.terminal)
      pending ++ terminal.take (inboxMaxCurrentRows - pending.length)
    else kept
  selected.map OperatorInboxEntry.id

def compact (clock : Clock) (log : InboxLog) (now : Stamp) : InboxLog :=
  let keepIds := inboxKeepIds clock (current log) now.utc
  log.filter fun record => record.id ∈ keepIds

def reconcileLoop (now : String) : InboxLog → Dict String OperatorInboxEntry → List (String × String) →
    InboxLog × Dict String OperatorInboxEntry
  | records, cur, [] => (records, cur)
  | records, cur, (entryId, reason) :: rest =>
    match cur.get? entryId with
    | none => reconcileLoop now records cur rest
    | some entry =>
      if entry.terminal then reconcileLoop now records cur rest
      else
        let resolved := ladderResolve entry reason now
        reconcileLoop now (records ++ [resolved]) (cur.set entryId resolved) rest

/-- Resolve a subset and compact in one step. The log is rewritten only when an id goes. -/
def reconcileAndCompact (clock : Clock) (log : InboxLog) (now : Stamp) (reasons : List (String × String)) : InboxLog :=
  let resolved := reconcileLoop (clock.format now) log (current log) reasons
  let keepIds := inboxKeepIds clock resolved.2 now.utc
  if (current log).keys.all fun id => decide (id ∈ keepIds) then log
  else resolved.1.filter fun record => record.id ∈ keepIds

/-! ## What the operations append -/

inductive LiveAppends : InboxLog → InboxLog → Prop
  | done (log : InboxLog) : LiveAppends log log
  | more {log log' : InboxLog} {id : String} {e u : OperatorInboxEntry} (he : (current log).get? id = some e)
      (ht : e.terminal = false) (hu : SameRow e u) (h : LiveAppends (log ++ [u]) log') : LiveAppends log log'

variable {log : InboxLog} {id now : String} {e u : OperatorInboxEntry} {ts : List (String × Transition)}

theorem LiveAppends.one (he : (current log).get? id = some e) (ht : e.terminal = false) (hu : SameRow e u) :
    LiveAppends log (log ++ [u]) := .more he ht hu (.done _)

section
variable {log log' : InboxLog} {id now : String}

variable {t : Transition}

theorem transition_cases (h : transition log id (t.apply now) = .ok log') :
    log' = log ∨ ∃ e u, (current log).get? id = some e ∧ t.apply now e = some u ∧ log' = log ++ [u] := by
  unfold transition at h
  split at h
  · cases h
  rename_i e he
  split at h
  · cases h
    exact Or.inl rfl
  rename_i u hu
  cases h
  exact Or.inr ⟨e, u, he, hu, rfl⟩

theorem transition_live (h : transition log id (t.apply now) = .ok log') : LiveAppends log log' := by
  rcases transition_cases h with rfl | ⟨e, u, he, hu, rfl⟩
  · exact .done _
  · exact .one he (Transition.apply_spec hu).1 (Transition.apply_spec hu).2.1

theorem consume_cases {consumedBy : String} {via : OperatorInboxVia} (h : consume log id now consumedBy via = .ok log') :
    log' = log ∨ ∃ e u, (current log).get? id = some e ∧ e.terminal = false ∧
      consumeOperatorInboxEntry e now consumedBy via = some u ∧ log' = log ++ [u] := by
  unfold consume at h
  split at h
  · cases h
  rename_i e he
  split at h
  · cases h
    exact Or.inl rfl
  rename_i ht
  split at h
  · cases h
    exact Or.inl rfl
  rename_i u hu
  cases h
  exact Or.inr ⟨e, u, he, by simpa using ht, hu, rfl⟩

end

theorem fold_append_over (he : (current log).get? id = some e) (hu : u.id = id)
    (ht : e.terminal = true → u.terminal = true) (id' : String) :
    (current (log ++ [u])).get? id' = ((current log).set id u).get? id' := by
  rw [current, fold_concat, Dict.get?_set, hu]
  split
  · rename_i hid
    have hd : dominates e u = false := by
      cases h : e.terminal with
      | false => simp [dominates, h]
      | true => simp [dominates, ht h]
    rw [← hid, show foldOperatorInboxEntries log = current log from rfl, he, supersede, hd]
    rfl
  · rfl

theorem fold_append_live (he : (current log).get? id = some e) (ht : e.terminal = false) (hu : u.id = id) :
    ∀ id', (current (log ++ [u])).get? id' = ((current log).set id u).get? id' :=
  fold_append_over he hu fun h => absurd (ht.symm.trans h) Bool.false_ne_true

theorem transitionLoop_live : ∀ {cur : Dict String OperatorInboxEntry}
    {log appended all : InboxLog}, (∀ id, (current (log ++ appended)).get? id = cur.get? id) →
    transitionLoop now cur appended ts = .ok all → LiveAppends (log ++ appended) (log ++ all) := by
  induction ts with
  | nil =>
    intro cur log appended all _ h
    cases h
    exact .done _
  | cons p ts ih =>
    intro cur log appended all hc h
    obtain ⟨id, t⟩ := p
    rw [transitionLoop] at h
    split at h
    · cases h
    rename_i e he
    split at h
    · exact ih hc h
    rename_i u hu
    obtain ⟨ht, hrow, -⟩ := Transition.apply_spec hu
    have he' : (current (log ++ appended)).get? id = some e := (hc id).trans he
    have hid : u.id = id := hrow.id.trans (fold_mem he').2
    refine .more he' ht hrow ?_
    rw [List.append_assoc]
    refine ih (fun id' => ?_) h
    rw [← List.append_assoc, fold_append_live he' ht hid, Dict.get?_set, Dict.get?_set, hc id']

theorem transitionMany_live {log' : InboxLog} (h : transitionMany log now ts = .ok log') : LiveAppends log log' := by
  unfold transitionMany at h
  split at h
  · cases h
  rename_i all hall
  cases h
  have hb : LiveAppends (log ++ []) (log ++ all) := transitionLoop_live (fun id => by rw [List.append_nil]) hall
  rwa [List.append_nil] at hb

/-! ## Whole ids -/

theorem compact_eq_filter (clock : Clock) (log : InboxLog) (now : Stamp) :
    ∃ p : String → Bool, compact clock log now = log.filter fun r => p r.id :=
  ⟨fun id => decide (id ∈ inboxKeepIds clock (current log) now.utc), rfl⟩

theorem keepIds_mem {clock : Clock} {cur : Dict String OperatorInboxEntry} {now : Int}
    (h : id ∈ inboxKeepIds clock cur now) : ∃ e ∈ cur.values, e.id = id ∧ keepInboxEntry clock e now = true := by
  obtain ⟨e, he, hid⟩ := List.mem_map.mp h
  have hk : e ∈ cur.values.filter fun entry => keepInboxEntry clock entry now := by
    dsimp only at he
    split at he
    · rcases List.mem_append.mp he with he | he
      · have hm := List.mem_of_mem_take he
        rw [newestFirst, List.mem_insertionSort] at hm
        exact (List.mem_filter.mp hm).1
      have hm := List.mem_of_mem_take he
      rw [newestFirst, List.mem_insertionSort] at hm
      exact (List.mem_filter.mp hm).1
    · exact he
  exact ⟨e, (List.mem_filter.mp hk).1, hid, (List.mem_filter.mp hk).2⟩

def FiledById (cur : Dict String OperatorInboxEntry) : Prop := ∀ id e, cur.get? id = some e → e.id = id

theorem filedById_current (log : InboxLog) : FiledById (current log) := fun _ _ h => (fold_mem h).2

theorem reconcileLoop_spec {reasons : List (String × String)} : ∀ {records : InboxLog}
    {cur : Dict String OperatorInboxEntry}, FiledById cur →
    ∃ more : InboxLog, (reconcileLoop now records cur reasons).1 = records ++ more ∧
      FiledById (reconcileLoop now records cur reasons).2 ∧
      (∀ r ∈ more, ∃ e, (reconcileLoop now records cur reasons).2.get? r.id = some e ∧ e.state = .ladderResolved) ∧
      ∀ id e, cur.get? id = some e → e.terminal = true → (reconcileLoop now records cur reasons).2.get? id = some e := by
  induction reasons with
  | nil =>
    intro records cur hf
    refine ⟨[], (List.append_nil _).symm, hf, ?_, fun _ _ h _ => h⟩
    intro r hr
    cases hr
  | cons p reasons ih =>
    intro records cur hf
    obtain ⟨id, reason⟩ := p
    rw [reconcileLoop]
    split
    · exact ih hf
    rename_i entry he
    split
    · exact ih hf
    rename_i ht
    have hf' : FiledById (cur.set id (ladderResolve entry reason now)) := by
      intro id' e h
      rw [Dict.get?_set] at h
      split at h
      · rename_i hid
        cases h
        exact (hf id entry he).trans hid
      · exact hf id' e h
    obtain ⟨more, h1, h2, h3, h4⟩ := @ih (records ++ [ladderResolve entry reason now]) _ hf'
    refine ⟨ladderResolve entry reason now :: more, by simpa using h1, h2, fun r hr => ?_, fun id' e h hte => ?_⟩
    · rcases List.mem_cons.mp hr with rfl | hr
      · refine ⟨ladderResolve entry reason now, h4 _ _ ?_ rfl, rfl⟩
        rw [show (ladderResolve entry reason now).id = id from hf id entry he]
        exact Dict.get?_set_self ..
      · exact h3 r hr
    refine h4 id' e ?_ hte
    rw [Dict.get?_set_ne]
    · exact h
    intro heq
    subst heq
    rw [h] at he
    cases he
    exact ht hte

theorem reconcileAndCompact_eq_filter (clock : Clock) (log : InboxLog) (now : Stamp) (reasons : List (String × String)) :
    ∃ p : String → Bool, reconcileAndCompact clock log now reasons = log.filter fun r => p r.id := by
  unfold reconcileAndCompact
  dsimp only
  split
  · exact ⟨fun _ => true, (List.filter_eq_self.mpr fun _ _ => rfl).symm⟩
  obtain ⟨more, h1, h2, h3, -⟩ :=
    @reconcileLoop_spec (clock.format now) reasons log _ (filedById_current log)
  refine ⟨fun id => decide (id ∈ inboxKeepIds clock (reconcileLoop (clock.format now) log (current log) reasons).2
    now.utc), ?_⟩
  have hnil : more.filter (fun r => decide (r.id ∈ inboxKeepIds clock
      (reconcileLoop (clock.format now) log (current log) reasons).2 now.utc)) = [] := by
    rw [List.filter_eq_nil_iff]
    intro r hr hk
    obtain ⟨e, he, hs⟩ := h3 r hr
    obtain ⟨e', he', hid, hkeep⟩ := keepIds_mem (of_decide_eq_true hk)
    obtain ⟨k, hk'⟩ := Dict.mem_values.mp he'
    have hke : k = r.id := (h2 k e' hk').symm.trans hid
    rw [hke, he] at hk'
    cases hk'
    rw [keepInboxEntry, hs] at hkeep
    cases hkeep
  rw [h1, List.filter_append, hnil, List.append_nil]

end AgentsRemember.Inbox
