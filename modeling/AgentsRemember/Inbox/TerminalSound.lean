import AgentsRemember.Inbox.World

/-!
# The first terminal state wins

The guarded writers act on pending rows only, and a stale pending snapshot is
dominated by the fold. A delivery attempt or an adapter completion appends the
row it holds without asking: it keeps the terminal state of the log, unless the
row was read before the id was removed and came back.
-/

namespace AgentsRemember.Inbox

open Lib

/-- No unguarded update brings a terminal row to an id that is terminal in another state. -/
def Agrees (w : World) : InboxAction → Prop
  | .update seen id u => u.guarded = false → ∀ e c, w.seenRow seen id = some e → e.terminal = true →
      (current w.log).get? id = some c → c.terminal = true → c.state = e.state
  | _ => True

/-! ## Gate ids -/

def GateFixed (w : World) : Prop :=
  ∀ log ∈ w.log :: w.past, ∀ log' ∈ w.log :: w.past, ∀ r ∈ log, ∀ r' ∈ log', r.id = r'.id → r.gateId = r'.gateId

def Inherits (w : World) (log : InboxLog) : Prop :=
  ∀ r ∈ log, (∃ old ∈ w.log :: w.past, ∃ e ∈ old, r.id = e.id ∧ r.gateId = e.gateId) ∨
    (w.fresh r.id = true ∧ ∀ r' ∈ log, r'.id = r.id → r'.gateId = r.gateId)

variable {w : World} {log : InboxLog} {r : OperatorInboxEntry}

theorem fresh_ne {id : String} (h : w.fresh id = true) (hl : log ∈ w.log :: w.past) (hr : r ∈ log) : r.id ≠ id := by
  simp only [World.fresh, List.all_eq_true, decide_eq_true_eq] at h
  exact h log hl r hr

theorem gateFixed_advance (h : GateFixed w) (hl : Inherits w log) : GateFixed (w.advance log) := by
  have hold : ∀ r ∈ log, ∀ old ∈ w.log :: w.past, ∀ e ∈ old, r.id = e.id → r.gateId = e.gateId := by
    intro r hr old ho e he hid
    rcases hl r hr with ⟨old', ho', e', he', hid', hg⟩ | ⟨hf, -⟩
    · exact hg.trans (h old' ho' old ho e' he' e he (hid'.symm.trans hid))
    · exact absurd hid.symm (fresh_ne hf ho he)
  have hnew : ∀ r ∈ log, ∀ r' ∈ log, r.id = r'.id → r.gateId = r'.gateId := by
    intro r hr r' hr' hid
    rcases hl r hr with ⟨old, ho, e, he, hid', hg⟩ | ⟨-, hf⟩
    · exact hg.trans (hold r' hr' old ho e he (hid.symm.trans hid')).symm
    · exact (hf r' hr' hid.symm).symm
  intro l₁ h₁ l₂ h₂ r hr r' hr' hid
  rcases List.mem_cons.mp h₁ with rfl | h₁ <;> rcases List.mem_cons.mp h₂ with rfl | h₂
  · exact hnew r hr r' hr' hid
  · exact hold r hr l₂ h₂ r' hr' hid
  · exact (hold r' hr' l₁ h₁ r hr hid.symm).symm
  · exact h l₁ h₁ l₂ h₂ r hr r' hr' hid

theorem inherits_sub (h : ∀ r ∈ log, r ∈ w.log) : Inherits w log := fun r hr =>
  Or.inl ⟨w.log, by simp, r, h r hr, rfl, rfl⟩

theorem inherits_append {e : OperatorInboxEntry} {old : InboxLog} (ho : old ∈ w.log :: w.past) (he : e ∈ old)
    (hr : SameRow e r) : Inherits w (w.log ++ [r]) := by
  intro x hx
  rcases List.mem_append.mp hx with hx | hx
  · exact Or.inl ⟨w.log, by simp, x, hx, rfl, rfl⟩
  · rw [List.mem_singleton.mp hx]
    exact Or.inl ⟨old, ho, e, he, hr.id, hr.gateId⟩

theorem inherits_live {log' : InboxLog} (h : LiveAppends log log')
    (hl : ∀ r ∈ log, ∃ e ∈ w.log, r.id = e.id ∧ r.gateId = e.gateId) :
    ∀ r ∈ log', ∃ e ∈ w.log, r.id = e.id ∧ r.gateId = e.gateId := by
  induction h with
  | done log => exact hl
  | @more log log' id e u he ht hu _ ih =>
    refine ih fun r hr => ?_
    rcases List.mem_append.mp hr with hr | hr
    · exact hl r hr
    rw [List.mem_singleton.mp hr]
    obtain ⟨e', he', hid, hg⟩ := hl e (fold_mem he).1
    exact ⟨e', he', hu.id.trans hid, hu.gateId.trans hg⟩

section
variable {clock : Clock} {w w' : World} {a : InboxAction} {id : String} {e : OperatorInboxEntry}

theorem gateFixed_step (h : GateFixed w) (hs : w.step clock a = some w') : GateFixed w' := by
  rcases World.step_cases hs with ⟨r, hf, -, rfl⟩ | ⟨seen, id, u, e, r, -, he, -, hrow, -, rfl⟩ | ⟨log, hl, rfl⟩ |
    ⟨p, rfl⟩ | ⟨gate, rfl⟩
  · refine gateFixed_advance h fun x hx => ?_
    rcases List.mem_append.mp hx with hx | hx
    · exact Or.inl ⟨w.log, by simp, x, hx, rfl, rfl⟩
    obtain rfl := List.mem_singleton.mp hx
    refine Or.inr ⟨hf, fun r' hr' hid => ?_⟩
    rcases List.mem_append.mp hr' with hr' | hr'
    · exact absurd hid (fresh_ne hf (by simp) hr')
    · rw [List.mem_singleton.mp hr']
  · obtain ⟨⟨old, ho, heo⟩, -⟩ := World.seenRow_mem he
    exact gateFixed_advance h (inherits_append ho heo hrow)
  · refine gateFixed_advance h fun r hr => Or.inl ?_
    obtain ⟨e, he, hid, hg⟩ := inherits_live hl (fun r hr => ⟨r, hr, rfl, rfl⟩) r hr
    exact ⟨w.log, by simp, e, he, hid, hg⟩
  · exact gateFixed_advance h (inherits_sub fun r hr => (List.mem_filter.mp hr).1)
  · exact gateFixed_advance h (inherits_sub fun r hr => (List.mem_filter.mp hr).1)

theorem gateFixed_reachable {ok : World → InboxAction → Prop} (h : Reachable (inboxSystem clock) ok w) : GateFixed w := by
  refine h.invariant ?_ ?_
  · intro l₁ h₁ l₂ _ r hr
    rw [List.mem_singleton.mp h₁] at hr
    cases hr
  intro s a t hi _ hs
  have hs' : s.step clock a = some t := hs
  exact gateFixed_step hi hs'

theorem deleteByGate_eq_filter (h : GateFixed w) (gate : String) :
    ∃ p : String → Bool, deleteByGate w.log gate = w.log.filter fun r => p r.id := by
  refine ⟨fun id => w.log.all fun r => decide (r.id = id → r.gateId ≠ some gate), List.filter_congr fun r hr => ?_⟩
  rw [Bool.eq_iff_iff, decide_eq_true_eq, List.all_eq_true]
  constructor
  · intro hg r' hr'
    refine decide_eq_true fun hid => ?_
    rw [h w.log (by simp) w.log (by simp) r' hr' r hr hid]
    exact hg
  · intro hall
    exact of_decide_eq_true (hall r hr) rfl

theorem fold_live_terminal {log log' : InboxLog} (h : LiveAppends log log') (he : (current log).get? id = some e)
    (ht : e.terminal = true) : (current log').get? id = some e := by
  induction h with
  | done log => exact he
  | @more log log' id' c u hc hct hu _ ih =>
    refine ih ?_
    rw [current, fold_concat, if_neg]
    · exact he
    rw [hu.id, (fold_mem hc).2]
    intro heq
    subst heq
    rw [he] at hc
    cases hc
    rw [ht] at hct
    cases hct

theorem terminal_step (hg : GateFixed w) (he : (current w.log).get? id = some e) (ht : e.terminal = true)
    (hok : Agrees w a) (hs : w.step clock a = some w') {e' : OperatorInboxEntry}
    (he' : (current w'.log).get? id = some e') : e'.state = e.state := by
  have hfilter : ∀ p : String → Bool, (current (w.log.filter fun r => p r.id)).get? id = some e' → e'.state = e.state := by
    intro p hp
    rw [current, fold_filter] at hp
    split at hp
    · have he2 := he.symm.trans hp
      cases he2
      rfl
    · cases hp
  rcases World.step_cases hs with ⟨r, hf, -, rfl⟩ | ⟨seen, id', u, c, r, rfl, hc, hguard, hrow, hst, rfl⟩ | ⟨log, hl, rfl⟩ |
    ⟨p, rfl⟩ | ⟨gate, rfl⟩
  · simp only [World.advance, current, fold_concat] at he'
    have hne : r.id ≠ id := fun hid => fresh_ne hf (by simp) (fold_mem he).1 ((fold_mem he).2.trans hid.symm)
    rw [if_neg hne] at he'
    have he2 := he.symm.trans he'
    cases he2
    rfl
  · simp only [World.advance, current, fold_concat] at he'
    have hcid : c.id = id' := (World.seenRow_mem hc).2
    split at he'
    · rename_i hid
      have hidd : id' = id := hcid.symm.trans (hrow.id.symm.trans hid)
      subst hidd
      rw [show foldOperatorInboxEntries w.log = current w.log from rfl, he] at he'
      cases he'
      by_cases hrt : r.terminal = true
      · have hct : c.terminal = true := by
          simpa only [OperatorInboxEntry.terminal, hst] using hrt
        have hug : u.guarded = false := by
          cases hu : u.guarded with
          | false => rfl
          | true =>
            rw [hguard hu] at hct
            cases hct
        have hagree : e.state = c.state := hok hug c e hc hct he ht
        simp only [supersede, dominates, hrt, Bool.not_true, Bool.and_false, Bool.false_eq_true, ite_false]
        exact hst.trans hagree.symm
      · simp [supersede, dominates, ht, hrt]
    · have he2 := he.symm.trans he'
      cases he2
      rfl
  · have he2 := (fold_live_terminal hl he ht).symm.trans he'
    cases he2
    rfl
  · exact hfilter p he'
  · obtain ⟨p, hp⟩ := deleteByGate_eq_filter hg gate
    refine hfilter p ?_
    rw [← hp]
    exact he'

end

/-! ## Rows of the current life -/

def Present (clock : Clock) (id : String) (w : World) (a : InboxAction) : Prop :=
  ∀ w', w.step clock a = some w' → (current w'.log).get? id ≠ none

/-- **The first terminal state wins**, until the id is removed, in every run in which no terminal row of one state is
appended over a terminal row of another. -/
theorem first_terminal_state_wins (clock : Clock) {w w' : World} {id : String} {e : OperatorInboxEntry}
    (hw : Reachable (inboxSystem clock) always w) (he : (current w.log).get? id = some e) (ht : e.terminal = true)
    (h : Steps (inboxSystem clock) (fun s a => Agrees s a ∧ Present clock id s a) w w') :
    ∃ e', (current w'.log).get? id = some e' ∧ e'.state = e.state := by
  refine (h.stays (I := GateFixed) (P := fun s => ∃ e', (current s.log).get? id = some e' ∧ e'.state = e.state) ?_ ?_
    (gateFixed_reachable hw) ⟨e, he, rfl⟩).2
  · intro s a t hi _ hs
    have hs' : s.step clock a = some t := hs
    exact gateFixed_step hi hs'
  intro s a t hi hex1 hex2 hs
  obtain ⟨c, hc, hcs⟩ := hex1
  obtain ⟨hok, hp⟩ := hex2
  obtain ⟨c', hc'⟩ := Option.ne_none_iff_exists'.mp (hp t hs)
  have hct : c.terminal = true := by
    simpa only [OperatorInboxEntry.terminal, hcs] using ht
  exact ⟨c', hc', (terminal_step hi hc hct hok hs hc').trans hcs⟩

/-! ## One row, two lives -/

def land : InboxAction := .transition "row-1" "2026-08-01T11:00:00+00:00" (.markLanded "adapter-accepted-at-turn-boundary")

def landedWorld : World := (runFrom (inboxSystem pythonClock) World.init [post, land]).get (by decide)

theorem landedWorld_reachable : Reachable (inboxSystem pythonClock) always landedWorld :=
  reachable_of_runFrom (Option.some_get _).symm

def complete (ago : Nat) : InboxAction :=
  .update (.fold ago) "row-1" (.recordAdapterCompletion {} "2026-08-01T12:00:00+00:00")

theorem landed_stays_landed :
    ∃ e w', landedWorld.step pythonClock (complete 0) = some w' ∧ (current w'.log).get? "row-1" = some e ∧
      e.state = .landed := by
  obtain ⟨c, hc⟩ : ∃ c, (current landedWorld.log).get? "row-1" = some c := Option.isSome_iff_exists.mp (by decide)
  have hst : ((current landedWorld.log).get? "row-1").map OperatorInboxEntry.state = some .landed := by decide
  rw [hc] at hst
  have hland : c.state = .landed := Option.some.inj hst
  have hct : c.terminal = true := by simp [OperatorInboxEntry.terminal, hland]
  obtain ⟨w', hw'⟩ : ∃ w', landedWorld.step pythonClock (complete 0) = some w' := Option.isSome_iff_exists.mp (by decide)
  have hpresent : Present pythonClock "row-1" landedWorld (complete 0) := by
    intro t ht hnone
    have hsome : ((landedWorld.step pythonClock (complete 0)).map fun t =>
        ((current t.log).get? "row-1").isSome) = some true := by decide
    rw [ht, Option.map_some, hnone] at hsome
    cases hsome
  have hagrees : Agrees landedWorld (complete 0) := by
    intro _ e c' he _ hc' _
    have heq : some c' = some e := hc'.symm.trans he
    cases heq
    rfl
  obtain ⟨e, he, hs⟩ := first_terminal_state_wins pythonClock landedWorld_reachable hc hct
    (.tail .refl ⟨hagrees, hpresent⟩ hw')
  exact ⟨e, w', hw', he, hs.trans hland⟩

def secondLife : List InboxAction :=
  [.compact ⟨1785837600000000, some 0⟩,
    .update (.fold 2) "row-1" (.renew {} "2026-08-04T10:00:01+00:00"),
    .transition "row-1" "2026-08-04T10:05:00+00:00" (.markSuperseded "overtaken" none)]

def supersededWorld : World := (runFrom (inboxSystem pythonClock) World.init ([post, land] ++ secondLife)).get (by decide)

theorem superseded_row_landed_again :
    ¬ ∀ (w w' : World) (id : String) (e : OperatorInboxEntry), Reachable (inboxSystem pythonClock) always w →
        (current w.log).get? id = some e → e.terminal = true →
        Steps (inboxSystem pythonClock) (Present pythonClock id) w w' →
        ∃ e', (current w'.log).get? id = some e' ∧ e'.state = e.state := by
  intro hall
  have hr : Reachable (inboxSystem pythonClock) always supersededWorld := reachable_of_runFrom (Option.some_get _).symm
  obtain ⟨c, hc⟩ : ∃ c, (current supersededWorld.log).get? "row-1" = some c := Option.isSome_iff_exists.mp (by decide)
  have hst : ((current supersededWorld.log).get? "row-1").map OperatorInboxEntry.state = some .superseded := by decide
  rw [hc] at hst
  have hsup : c.state = .superseded := Option.some.inj hst
  have hct : c.terminal = true := by simp [OperatorInboxEntry.terminal, hsup]
  have hlanded : ((supersededWorld.step pythonClock (complete 3)).map fun t =>
      ((current t.log).get? "row-1").map OperatorInboxEntry.state) = some (some .landed) := by decide
  obtain ⟨w', hw'⟩ : ∃ w', supersededWorld.step pythonClock (complete 3) = some w' :=
    Option.isSome_iff_exists.mp (by decide)
  rw [hw', Option.map_some] at hlanded
  have hpresent : Present pythonClock "row-1" supersededWorld (complete 3) := by
    intro t ht hnone
    rw [hw'] at ht
    cases ht
    rw [hnone] at hlanded
    cases hlanded
  obtain ⟨e', he', hs⟩ := hall supersededWorld w' "row-1" c hr hc hct (.tail .refl hpresent hw')
  rw [he', Option.map_some, hs, hsup] at hlanded
  cases hlanded

end AgentsRemember.Inbox
