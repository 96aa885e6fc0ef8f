import AgentsRemember.Expectations.Rows

/-!
# A row resolves once

A compaction leaves a log that folds to the rows it keeps. A marking writes what
its caller's row says, so a row stays resolved as it first was where every
marking from a pending row agrees with what any log has said of the row so far.
-/

namespace AgentsRemember.Expectations

open Lib

/-! ## Compaction -/

section
variable {clock : Clock} {log : ExpectationLog} {now : Stamp} {retain : Int}

theorem keptRows_entries {e : String × ExpectationRow} (he : e ∈ (keptRows clock log now retain).entries) : e.2.id = e.1 :=
  foldLog_entries _ _ (List.mem_filter.mp he).1

theorem length_keptRows : (keptRows clock log now retain).entries.length ≤ (current log).entries.length :=
  List.length_filter_le _ _

theorem keptRows_of_length (h : log.length - (keptRows clock log now retain).values.length = 0) :
    keptRows clock log now retain = current log := by
  have hfold : (current log).entries.length ≤ log.length := length_foldLog _ _ log
  have hkept := @length_keptRows clock log now retain
  rw [Dict.values, List.length_map] at h
  refine Dict.ext (List.Sublist.eq_of_length List.filter_sublist ?_)
  have heq : (keptRows clock log now retain).entries.length = (current log).entries.length := by omega
  exact heq

theorem current_compact (clock : Clock) (log : ExpectationLog) (now : Stamp) (retain : Int) :
    current (compact clock log now retain) = keptRows clock log now retain := by
  unfold compact
  dsimp only
  split
  · rename_i h
    exact (keptRows_of_length h).symm
  · exact foldLog_values _ fun e he => keptRows_entries he

variable {id : String} {row : ExpectationRow}

theorem keptRows_of_pending (h : (current log).get? id = some row) (hp : row.state = .pending) :
    (keptRows clock log now retain).get? id = some row := by
  rw [keptRows, Dict.get?_filterKeys, h, Option.all_some, keepRow, if_pos hp, if_pos rfl]

theorem keptRows_current (h : (keptRows clock log now retain).get? id = some row) :
    (current log).get? id = some row := by
  rw [keptRows, Dict.get?_filterKeys] at h
  split at h
  · exact h
  · cases h

end

/-! ## Markings that agree -/

namespace World

def AgreesOn (w : World) (id : String) (outcome : ExpectationState) : Prop :=
  ∀ log ∈ w.logs, ∀ e ∈ (current log).get? id, e.state = .pending ∨ e.state = outcome

/-- A marking from a pending row agrees with what the logs have said of it. -/
def Agrees (w : World) : ExpectationAction → Prop
  | .markMet seen id _ => ∀ row ∈ w.seenRow seen id, row.state = .pending → w.AgreesOn id .met
  | .markMissed seen id _ => ∀ row ∈ w.seenRow seen id, row.state = .pending → w.AgreesOn id .missed
  | _ => True

instance (w : World) (id : String) (outcome : ExpectationState) : Decidable (w.AgreesOn id outcome) := by
  unfold AgreesOn
  infer_instance

instance : ∀ (w : World) (a : ExpectationAction), Decidable (w.Agrees a)
  | w, .markMet seen id _ =>
    inferInstanceAs (Decidable (∀ row ∈ w.seenRow seen id, row.state = .pending → w.AgreesOn id .met))
  | w, .markMissed seen id _ =>
    inferInstanceAs (Decidable (∀ row ∈ w.seenRow seen id, row.state = .pending → w.AgreesOn id .missed))
  | _, .write .. => inferInstanceAs (Decidable True)
  | _, .compact .. => inferInstanceAs (Decidable True)

structure ResolvedTo (w : World) (id : String) (outcome : ExpectationState) : Prop where
  was : ∃ log ∈ w.logs, ∃ e, (current log).get? id = some e ∧ e.state = outcome
  now : ∀ e, (current w.log).get? id = some e → e.state = outcome

section
variable {clock : Clock} {w : World} {id : String} {outcome : ExpectationState}

variable {log : ExpectationLog} {outcome' : ExpectationState} {row : ExpectationRow} {a : ExpectationAction}
  {w' : World}

theorem ResolvedTo.advance (h : w.ResolvedTo id outcome)
    (hnow : ∀ e, (current log).get? id = some e → e.state = outcome) : (w.advance log).ResolvedTo id outcome := by
  obtain ⟨l, hl, hwas⟩ := h.was
  exact ⟨⟨l, List.mem_cons_of_mem _ hl, hwas⟩, hnow⟩

theorem ResolvedTo.append {r : ExpectationRow} (h : w.ResolvedTo id outcome) (hr : r.id = id → r.state = outcome) :
    (w.advance (w.log ++ [r])).ResolvedTo id outcome := by
  refine h.advance fun e he => ?_
  rw [current_concat] at he
  split at he
  · rename_i hid
    cases he
    exact hr hid
  · exact h.now e he

theorem ResolvedTo.not_fresh (h : w.ResolvedTo id outcome) : w.fresh id = false := by
  obtain ⟨log, hlog, e, he, -⟩ := h.was
  obtain ⟨hmem, hid⟩ := current_mem he
  rw [← Bool.not_eq_true, fresh, List.all_eq_true]
  intro hall
  have hne := of_decide_eq_true (List.all_eq_true.mp (hall log hlog) e hmem)
  exact hne hid

theorem ResolvedTo.agrees (h : w.ResolvedTo id outcome) (ho : outcome ≠ .pending) (ha : w.AgreesOn id outcome') :
    outcome = outcome' := by
  obtain ⟨log, hlog, e, he, hs⟩ := h.was
  rcases ha log hlog e he with hpending | hsame
  · exact absurd (hs.symm.trans hpending) ho
  · exact hs.symm.trans hsame

theorem ResolvedTo.marked (mark : ExpectationRow → ExpectationRow) {rowId : String} (h : w.ResolvedTo id outcome)
    (ho : outcome ≠ .pending) (hid : row.id = rowId) (hm : (mark row).id = row.id)
    (hs : row.state = .pending → (mark row).state = outcome') (ha : row.state = .pending → w.AgreesOn rowId outcome') :
    (w.advance (if row.state ≠ .pending then w.log else w.log ++ [mark row])).ResolvedTo id outcome := by
  by_cases hp : row.state = .pending
  · rw [if_neg (by simp [hp])]
    refine h.append fun hsame => ?_
    have hrow : rowId = id := hid.symm.trans (hm.symm.trans hsame)
    subst hrow
    rw [hs hp]
    exact (h.agrees ho (ha hp)).symm
  · rw [if_pos hp]
    exact h.advance h.now

theorem ResolvedTo.step (h : w.ResolvedTo id outcome) (ho : outcome ≠ .pending) (ha : w.Agrees a)
    (hs : step clock w a = some w') : w'.ResolvedTo id outcome := by
  unfold World.step at hs
  cases hr : w.result clock a with
  | error e =>
    rw [hr] at hs
    cases hs
  | ok log =>
    rw [hr] at hs
    cases hs
    cases a with
    | write expectation rowId now sla =>
      rw [result] at hr
      split at hr
      · rename_i hfresh
        cases hr
        refine h.append fun hid => ?_
        have hid' : rowId = id := hid
        rw [hid', h.not_fresh] at hfresh
        cases hfresh
      · cases hr
    | markMet seen rowId now =>
      rw [result] at hr
      cases hseen : w.seenRow seen rowId with
      | none =>
        rw [hseen] at hr
        cases hr
      | some row =>
        rw [hseen] at hr
        cases hr
        exact h.marked (fun row => Expectations.markMet row now) ho (seenRow_id hseen) (markMet_id row now)
          (markMet_state now) (ha row hseen)
    | markMissed seen rowId now =>
      rw [result] at hr
      cases hseen : w.seenRow seen rowId with
      | none =>
        rw [hseen] at hr
        cases hr
      | some row =>
        rw [hseen] at hr
        cases hr
        exact h.marked (fun row => Expectations.markMissed row now) ho (seenRow_id hseen) (markMissed_id row now)
          (markMissed_state now) (ha row hseen)
    | compact now retain =>
      cases hr
      refine h.advance fun e he => h.now e ?_
      rw [current_compact] at he
      exact keptRows_current he

theorem overturns (mark : ExpectationRow → ExpectationRow) (hid : row.id = id) (hm : (mark row).id = row.id)
    (hp : row.state = .pending) (hs : row.state = .pending → (mark row).state = outcome) (hn : ¬ w.AgreesOn id outcome)
    (hlog : log = if row.state ≠ .pending then w.log else w.log ++ [mark row]) :
    ∃ before ∈ w.logs, ∃ e, (current before).get? id = some e ∧ e.state ≠ .pending ∧
      ∃ e', (current log).get? id = some e' ∧ e'.state ≠ e.state := by
  simp only [AgreesOn, not_forall, not_or] at hn
  obtain ⟨before, hbefore, e, he, hpending, hother⟩ := hn
  refine ⟨before, hbefore, e, he, hpending, mark row, ?_, ?_⟩
  · rw [hlog, if_neg (by simp [hp]), current_concat, if_pos (hm.trans hid)]
  · rw [hs hp]
    exact fun h => hother h.symm

theorem overturns_of_not_agrees (hs : step clock w a = some w') (hn : ¬ w.Agrees a) :
    ∃ id, ∃ before ∈ w.logs, ∃ e, (current before).get? id = some e ∧ e.state ≠ .pending ∧
      ∃ e', (current w'.log).get? id = some e' ∧ e'.state ≠ e.state := by
  cases a with
  | write => exact absurd trivial hn
  | compact => exact absurd trivial hn
  | markMet seen id now =>
    simp only [Agrees, not_forall] at hn
    obtain ⟨row, hseen, hp, hn⟩ := hn
    have hseen : w.seenRow seen id = some row := hseen
    simp only [step, result, hseen, storeMarkMet, Option.some.injEq] at hs
    subst hs
    exact ⟨id, overturns (fun row => Expectations.markMet row now) (seenRow_id hseen) (markMet_id row now) hp (markMet_state now) hn rfl⟩
  | markMissed seen id now =>
    simp only [Agrees, not_forall] at hn
    obtain ⟨row, hseen, hp, hn⟩ := hn
    have hseen : w.seenRow seen id = some row := hseen
    simp only [step, result, hseen, storeMarkMissed, Option.some.injEq] at hs
    subst hs
    exact ⟨id, overturns (fun row => Expectations.markMissed row now) (seenRow_id hseen) (markMissed_id row now) hp (markMissed_state now) hn rfl⟩

end

end World

/-- **A row resolves once.** Where the markings of a run agree, a row that a fold resolved is in every later fold
resolved as it was, or gone with a compaction; a marking that disagrees overturns an outcome. A compaction leaves
the fold of what it keeps, and keeps every pending row. -/
theorem resolves_once (clock : Clock) :
    (∀ w w', Reachable (expectationSystem clock) World.Agrees w → Steps (expectationSystem clock) World.Agrees w w' →
      ∀ id row, (current w.log).get? id = some row → row.state ≠ .pending →
      ∀ row', (current w'.log).get? id = some row' → row'.state = row.state) ∧
    (∀ w a w', (expectationSystem clock).step w a = some w' → ¬ w.Agrees a →
      ∃ id, ∃ before ∈ w.logs, ∃ row, (current before).get? id = some row ∧ row.state ≠ .pending ∧
      ∃ row', (current w'.log).get? id = some row' ∧ row'.state ≠ row.state) ∧
    ∀ log now retain,
      (∀ id row, (keptRows clock log now retain).get? id = some row →
        (current log).get? id = some row ∧ (current (compact clock log now retain)).get? id = some row) ∧
      ∀ id row, (current log).get? id = some row → row.state = .pending →
        (current (compact clock log now retain)).get? id = some row := by
  refine ⟨?_, fun w a w' hs hn => World.overturns_of_not_agrees hs hn, fun log now retain => ⟨?_, ?_⟩⟩
  · intro w w' _ hrun id row hrow hresolved row' hrow'
    have hfirst : w.ResolvedTo id row.state := by
      refine ⟨⟨w.log, List.mem_cons_self, row, hrow, rfl⟩, fun e he => ?_⟩
      rw [hrow] at he
      cases he
      rfl
    have hstays := hrun.stays (I := fun _ => True) (P := fun w => w.ResolvedTo id row.state) (fun _ _ _ _ _ _ => trivial)
      (fun _ _ _ _ hp hok hs => hp.step hresolved hok hs) trivial hfirst
    exact hstays.2.now row' hrow'
  · intro id row hkept
    exact ⟨keptRows_current hkept, by rw [current_compact]; exact hkept⟩
  · intro id row hrow hp
    rw [current_compact]
    exact keptRows_of_pending hrow hp

/-! ## The earlier fold -/

def dispatched : Stamp := ⟨1782036000000000, some 0⟩

def briefedActions : List ExpectationAction :=
  [.write { kind := .briefedBy, sourceId := "session-1" } "R1" dispatched 300000000,
    .markMet (.fold 0) "R1" "2026-06-21T10:01:00+00:00"]

def missedActions : List ExpectationAction := [.markMissed (.fold 1) "R1" "2026-06-21T10:06:00+00:00"]

def laterActions : List ExpectationAction :=
  [.markMissed (.fold 0) "R1" "2026-06-21T10:06:00+00:00", .compact dispatched 86400000000]

def stateOf (w : World) (id : String) : Option ExpectationState := ((current w.log).get? id).map ExpectationRow.state

theorem briefed_stays_met : ∃ w w', Reachable (expectationSystem pythonClock) World.Agrees w ∧
    Steps (expectationSystem pythonClock) World.Agrees w w' ∧
    ∀ id row, (current w.log).get? id = some row → row.state ≠ .pending →
      ∀ row', (current w'.log).get? id = some row' → row'.state = row.state := by
  have hrun : (checkedRun (expectationSystem pythonClock) World.Agrees World.init briefedActions).any (fun w =>
      (checkedRun (expectationSystem pythonClock) World.Agrees w laterActions).any fun w' =>
        decide (stateOf w "R1" = some .met) && decide (stateOf w' "R1" = some .met)) = true := by decide +kernel
  obtain ⟨w, hw, hmet⟩ := exists_of_checkedRun hrun
  obtain ⟨w', hw', -⟩ := exists_of_checkedRun hmet
  exact ⟨w, w', hw, hw', (resolves_once pythonClock).1 w w' hw hw'⟩

theorem met_then_missed : ¬ ∀ w w', Reachable (expectationSystem pythonClock) always w →
    Steps (expectationSystem pythonClock) always w w' → ∀ id row, (current w.log).get? id = some row →
    row.state ≠ .pending → ∀ row', (current w'.log).get? id = some row' → row'.state = row.state := by
  intro hall
  have hrun : (runFrom (expectationSystem pythonClock) World.init briefedActions).any (fun w =>
      (runFrom (expectationSystem pythonClock) w missedActions).any fun w' =>
        decide (stateOf w "R1" = some .met) && decide (stateOf w' "R1" = some .missed)) = true := by decide +kernel
  obtain ⟨w, hw, hrest⟩ := (Option.any_eq_true _ _).mp hrun
  obtain ⟨w', hw', hstates⟩ := (Option.any_eq_true _ _).mp hrest
  rw [Bool.and_eq_true, decide_eq_true_eq, decide_eq_true_eq] at hstates
  obtain ⟨row, hrow, hmet⟩ := Option.map_eq_some_iff.mp hstates.1
  obtain ⟨row', hrow', hmissed⟩ := Option.map_eq_some_iff.mp hstates.2
  have hsame := hall w w' (reachable_of_runFrom hw) (steps_of_runFrom (fun _ _ _ => trivial) hw') "R1" row hrow
    (by simp [hmet]) row' hrow'
  rw [hmet, hmissed] at hsame
  cases hsame

end AgentsRemember.Expectations
