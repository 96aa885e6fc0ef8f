import AgentsRemember.Inbox.Store

/-!
# A batch of transitions

`transition_many` decides on one fold and appends once, at its end. It answers
what its transitions answer one after the other and leaves the same log, as long
as none renames its row or reopens a terminal one: the batch hands such a
snapshot to the next transition of the id, where the fold keeps the terminal row.
-/

namespace AgentsRemember.Inbox

open Lib

/-- What a caller hands in: the next snapshot of a row, nothing to append, or an exception. -/
abbrev RowTransition := OperatorInboxEntry → Except String (Option OperatorInboxEntry)

/-- A call on the log: what it returns or raises, and the log it leaves. -/
abbrev Call (α : Type) := InboxLog → Except String α × InboxLog

abbrev RowResult := OperatorInboxEntry × Bool

/-- `_validated`. Validation gives back the snapshot it accepts. -/
structure Validation where
  validated : OperatorInboxEntry → Except String OperatorInboxEntry
  accepts : ∀ {e r : OperatorInboxEntry}, validated e = .ok r → r = e

def transitionRow (v : Validation) (entryId : String) (t : RowTransition) : Call RowResult := fun log =>
  match (current log).get? entryId with
  | none => (.error (noEntry entryId), log)
  | some entry =>
    match t entry with
    | .error e => (.error e, log)
    | .ok none => (.ok (entry, false), log)
    | .ok (some updated) =>
      match v.validated updated with
      | .error e => (.error e, log)
      | .ok record => (.ok (updated, true), log ++ [record])

/-- One transition after the other; the first that raises is the last. -/
def transitionEach (v : Validation) : List (String × RowTransition) → Call (List RowResult)
  | [], log => (.ok [], log)
  | (entryId, t) :: rest, log =>
    match transitionRow v entryId t log with
    | (.error e, log) => (.error e, log)
    | (.ok result, log) =>
      match transitionEach v rest log with
      | (.error e, log) => (.error e, log)
      | (.ok results, log) => (.ok (result :: results), log)

def batchLoop (v : Validation) : Dict String OperatorInboxEntry → List RowResult → InboxLog →
    List (String × RowTransition) → Except String (List RowResult × InboxLog)
  | _, results, appended, [] => .ok (results, appended)
  | cur, results, appended, (entryId, t) :: rest =>
    match cur.get? entryId with
    | none => .error (noEntry entryId)
    | some entry =>
      match t entry with
      | .error e => .error e
      | .ok none => batchLoop v cur (results ++ [(entry, false)]) appended rest
      | .ok (some updated) =>
        match v.validated updated with
        | .error e => .error e
        | .ok record => batchLoop v (cur.set entryId record) (results ++ [(record, true)]) (appended ++ [record]) rest

/-- `OperatorInboxStore.transition_many`. -/
def transitionBatch (v : Validation) (transitions : List (String × RowTransition)) : Call (List RowResult) := fun log =>
  match batchLoop v (current log) [] [] transitions with
  | .error e => (.error e, log)
  | .ok (results, appended) => (.ok results, log ++ appended)

/-- A transition stays with its row and leaves a terminal row terminal. -/
structure KeepsRow (t : RowTransition) : Prop where
  id : ∀ e u, t e = .ok (some u) → u.id = e.id
  terminal : ∀ e u, t e = .ok (some u) → e.terminal = true → u.terminal = true

def Transition.onRow (now : String) (t : Transition) : RowTransition := fun e => .ok (t.apply now e)

theorem Transition.keepsRow (now : String) (t : Transition) : KeepsRow (t.onRow now) := by
  constructor
  · intro e u h
    exact (Transition.apply_spec (Except.ok.inj h)).2.1.id
  intro e u h ht
  have hpending := (Transition.apply_spec (Except.ok.inj h)).1
  rw [ht] at hpending
  cases hpending

def acceptAll : Validation := ⟨.ok, fun h => (Except.ok.inj h).symm⟩

/-! ## The batch against the single transitions -/

section
variable {v : Validation}

theorem batchLoop_spec : ∀ {ts : List (String × RowTransition)} {cur : Dict String OperatorInboxEntry} {log : InboxLog}
    {results : List RowResult} {appended : InboxLog}, (∀ p ∈ ts, KeepsRow p.2) →
    (∀ id, cur.get? id = (current (log ++ appended)).get? id) →
    (∃ more rows, batchLoop v cur results appended ts = .ok (results ++ more, appended ++ rows) ∧
      transitionEach v ts (log ++ appended) = (.ok more, log ++ appended ++ rows)) ∨
    ∃ e, batchLoop v cur results appended ts = .error e ∧ (transitionEach v ts (log ++ appended)).1 = .error e
  | [], cur, log, results, appended, _, _ => by
    refine .inl ⟨[], [], ?_, ?_⟩
    · simp [batchLoop]
    · simp [transitionEach]
  | (id, t) :: ts, cur, log, results, appended, hts, hcur => by
    have htail : ∀ p ∈ ts, KeepsRow p.2 := fun p hp => hts p (List.mem_cons_of_mem _ hp)
    have hrow : KeepsRow t := hts (id, t) List.mem_cons_self
    rw [batchLoop, transitionEach, transitionRow, hcur id]
    cases he : (current (log ++ appended)).get? id with
    | none => exact .inr ⟨_, rfl, rfl⟩
    | some entry =>
      dsimp only
      cases ht : t entry with
      | error e => exact .inr ⟨_, rfl, rfl⟩
      | ok next =>
        cases next with
        | none =>
          dsimp only
          rcases @batchLoop_spec _ _ _ (results ++ [(entry, false)]) _ htail hcur with
            ⟨more, rows, hb, hs⟩ | ⟨e, hb, hs⟩
          · refine .inl ⟨(entry, false) :: more, rows, ?_, ?_⟩
            · rw [hb, List.append_assoc]
              rfl
            · rw [hs]
          refine .inr ⟨e, hb, ?_⟩
          cases hr : transitionEach v ts (log ++ appended) with
          | mk answer left =>
            rw [hr] at hs
            obtain rfl : answer = .error e := hs
            rfl
        | some updated =>
          dsimp only
          cases hv : v.validated updated with
          | error e => exact .inr ⟨_, rfl, rfl⟩
          | ok record =>
            obtain rfl := v.accepts hv
            dsimp only
            have hnext : ∀ id', (cur.set id record).get? id' = (current (log ++ (appended ++ [record]))).get? id' := by
              intro id'
              have hid : record.id = id := (hrow.id entry record ht).trans (fold_mem he).2
              rw [← List.append_assoc, fold_append_over he hid (hrow.terminal entry record ht), Dict.get?_set,
                Dict.get?_set, hcur]
            rw [List.append_assoc]
            rcases @batchLoop_spec _ _ _ (results ++ [(record, true)]) _ htail hnext with
              ⟨more, rows, hb, hs⟩ | ⟨e, hb, hs⟩
            · refine .inl ⟨(record, true) :: more, record :: rows, ?_, ?_⟩
              · rw [hb]
                simp
              · rw [hs]
                simp
            refine .inr ⟨e, hb, ?_⟩
            cases hr : transitionEach v ts (log ++ (appended ++ [record])) with
            | mk answer left =>
              rw [hr] at hs
              obtain rfl : answer = .error e := hs
              rfl

end

/-- **A batch is its transitions in order**, or it raises what they raise and appends nothing. -/
theorem batch_as_sequence (v : Validation) (log : InboxLog) (ts : List (String × RowTransition))
    (hts : ∀ p ∈ ts, KeepsRow p.2) :
    (∃ results log', transitionBatch v ts log = (.ok results, log') ∧ transitionEach v ts log = (.ok results, log')) ∨
    ∃ e, transitionBatch v ts log = (.error e, log) ∧ (transitionEach v ts log).1 = .error e := by
  have hcur : ∀ id, (current log).get? id = (current (log ++ [])).get? id := by
    intro id
    rw [List.append_nil]
  have hspec := @batchLoop_spec v _ _ _ [] _ hts hcur
  rw [List.append_nil] at hspec
  unfold transitionBatch
  rcases hspec with ⟨more, rows, hb, hs⟩ | ⟨e, hb, hs⟩
  · rw [hb]
    exact .inl ⟨more, log ++ rows, rfl, hs⟩
  · rw [hb]
    exact .inr ⟨e, rfl, hs⟩

/-! ## Rows that stay and a row that is reopened -/

def expiringRow : OperatorInboxEntry where
  id := "row-1"
  ts := "2026-08-01T10:00:00+00:00"
  state := .pending
  ask := "Closeout ready"
  response := ""
  createdAt := "2026-08-01T10:00:00+00:00"
  createdBy := "developer"
  createdVia := .dashboard

def expire : RowTransition := (Transition.expire { reason := "rebind-grace" }).onRow "2026-08-03T10:00:00+00:00"

theorem expired_once :
    (∃ results log', transitionBatch acceptAll [("row-1", expire), ("row-1", expire)] [expiringRow] = (.ok results, log') ∧
      transitionEach acceptAll [("row-1", expire), ("row-1", expire)] [expiringRow] = (.ok results, log')) ∨
    ∃ e, transitionBatch acceptAll [("row-1", expire), ("row-1", expire)] [expiringRow] = (.error e, [expiringRow]) ∧
      (transitionEach acceptAll [("row-1", expire), ("row-1", expire)] [expiringRow]).1 = .error e := by
  refine batch_as_sequence acceptAll [expiringRow] [("row-1", expire), ("row-1", expire)] ?_
  intro p hp
  obtain rfl : p = ("row-1", expire) := by simpa using hp
  exact Transition.keepsRow _ _

def landedRow : OperatorInboxEntry := { expiringRow with state := .landed }

def reopen : RowTransition := fun e => .ok (some { e with state := .pending })

theorem reopened_in_batch :
    ¬ ∀ (v : Validation) (log : InboxLog) (ts : List (String × RowTransition)),
      (∃ results log' left, transitionBatch v ts log = (.ok results, log') ∧ transitionEach v ts log = (.ok results, left) ∧
        ∀ id, (current log').get? id = (current left).get? id) ∨
      ∃ e, transitionBatch v ts log = (.error e, log) := by
  intro hall
  have hbatch : (transitionBatch acceptAll [("row-1", reopen), ("row-1", expire)] [landedRow]).1.toOption.map
      (·.map Prod.snd) = some [true, true] := by decide
  have heach : (transitionEach acceptAll [("row-1", reopen), ("row-1", expire)] [landedRow]).1.toOption.map
      (·.map Prod.snd) = some [true, false] := by decide
  rcases hall acceptAll [landedRow] [("row-1", reopen), ("row-1", expire)] with ⟨results, log', left, hb, hs, -⟩ | ⟨e, hb⟩
  · rw [hb] at hbatch
    rw [hs] at heach
    exact absurd (hbatch.symm.trans heach) (by decide)
  · rw [hb] at hbatch
    cases hbatch

end AgentsRemember.Inbox
