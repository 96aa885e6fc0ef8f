import AgentsRemember.Inbox.World

/-!
# Which updates survive

An update appends a whole snapshot of the row it holds, so it carries the
fields of every earlier update that row shows and drops those it does not. The
fields an update wrote stay through every later update that read a fold with
them and does not write them itself.
-/

namespace AgentsRemember.Inbox

open Lib

/-- An update of any row; on row `id` it leaves group `G` alone and, unless it reads for itself, works on a fold at most
as old as the log after `n` steps. -/
def ReadsLater (n : Nat) (id : String) (G : FieldGroup) (w : World) : InboxAction → Prop
  | .update seen id' u => id' = id → u.writes G = false ∧ ∃ ago, seen = .fold ago ∧ ago + n ≤ w.past.length
  | _ => False

section
variable {clock : Clock} {w w' : World} {a : InboxAction} {id : String} {e : OperatorInboxEntry} {n : Nat} {G : FieldGroup}

def Shows (n : Nat) (id : String) (e : OperatorInboxEntry) (G : FieldGroup) (w : World) : Prop :=
  n ≤ w.past.length ∧ ∀ ago, ago + n ≤ w.past.length →
    ∃ c, (current (w.logAt ago)).get? id = some c ∧ SameGroup e c G

theorem World.logAt_zero (w : World) : w.logAt 0 = w.log := rfl

theorem World.logAt_succ (w : World) (log : InboxLog) {ago : Nat} (h : ago ≤ w.past.length) :
    (w.advance log).logAt (ago + 1) = w.logAt ago := by
  have hlt : ago < (w.log :: w.past).length := by
    rw [List.length_cons]
    omega
  simp only [logAt, advance, List.getD_eq_getElem?_getD, List.getElem?_cons_succ, List.getElem?_eq_getElem hlt,
    Option.getD_some]

theorem Shows.now (h : Shows n id e G w) : ∃ c, (current w.log).get? id = some c ∧ SameGroup e c G := by
  obtain ⟨c, hc, hs⟩ := h.2 0 (by rw [Nat.zero_add]; exact h.1)
  exact ⟨c, hc, hs⟩

variable {log : InboxLog} {r c : OperatorInboxEntry}

theorem shows_advance (h : Shows n id e G w) (hl : ∃ c, (current log).get? id = some c ∧ SameGroup e c G) :
    Shows n id e G (w.advance log) := by
  have hlen : (w.advance log).past.length = w.past.length + 1 := rfl
  refine ⟨by have := h.1; omega, fun ago hago => ?_⟩
  cases ago with
  | zero => exact hl
  | succ ago =>
    have hago' : ago + n ≤ w.past.length := by omega
    rw [w.logAt_succ log (by omega)]
    exact h.2 ago hago'

theorem fold_append_group (hc : (current log).get? id = some c) (hcs : SameGroup e c G)
    (hr : r.id = id → SameGroup e r G) : ∃ c', (current (log ++ [r])).get? id = some c' ∧ SameGroup e c' G := by
  rw [current, fold_concat, show foldOperatorInboxEntries log = current log from rfl, hc]
  by_cases hid : r.id = id
  · rw [if_pos hid]
    refine ⟨_, rfl, ?_⟩
    rcases supersede_eq dominates (some c) r with heq | heq
    · rw [heq]
      exact hr hid
    · rw [← Option.some.inj heq]
      exact hcs
  · rw [if_neg hid]
    exact ⟨c, rfl, hcs⟩

theorem shows_step (h : Shows n id e G w) (hok : ReadsLater n id G w a) (hs : w.step clock a = some w') :
    Shows n id e G w' := by
  obtain ⟨c, hc, hcs⟩ := h.now
  cases a with
  | update seen id' u =>
    unfold World.step at hs
    split at hs
    · rename_i log hr
      cases hs
      refine shows_advance h ?_
      rcases u.run_cases hr with rfl | ⟨c', r, hc', -, hrow, -, hk, rfl⟩ | ⟨c', r, hc', -, hrow, hk, rfl⟩
      · exact ⟨c, hc, hcs⟩
      · refine fold_append_group hc hcs fun hid => ?_
        have hidd : id' = id := (World.seenRow_mem hc').2.symm.trans (hrow.id.symm.trans hid)
        obtain ⟨hw, ago, rfl, hago⟩ := hok hidd
        obtain ⟨c'', hc'', hs''⟩ := h.2 ago hago
        have heq : some c' = some c'' := hc'.symm.trans (hidd ▸ hc'')
        cases heq
        exact hs''.trans (hk G hw)
      refine fold_append_group hc hcs fun hid => ?_
      have hidd : id' = id := (fold_mem hc').2.symm.trans (hrow.id.symm.trans hid)
      have heq : some c' = some c := hc'.symm.trans (hidd ▸ hc)
      cases heq
      exact hcs.trans (hk G (hok hidd).1)
    · cases hs
  | append | transition | transitionMany | delete | deleteByGate | compact | reconcileAndCompact => cases hok

theorem shows_start (he : (current w.log).get? id = some e) : Shows w.past.length id e G w := by
  refine ⟨Nat.le_refl _, fun ago hago => ?_⟩
  have hz : ago = 0 := by omega
  rw [hz, World.logAt_zero]
  exact ⟨e, he, SameGroup.refl e G⟩

theorem shows_steps (h : Shows n id e G w) (hs : Steps (inboxSystem clock) (ReadsLater n id G) w w') :
    Shows n id e G w' := by
  refine (hs.stays (I := fun _ => True) (fun _ _ _ _ _ _ => trivial) ?_ trivial h).2
  intro s a t _ hi hok hst
  have hst' : s.step clock a = some t := hst
  exact shows_step hi hok hst'

theorem update_current {seen : Seen} {u : Update} (hc : (current w.log).get? id = some c) (ht : c.terminal = false)
    (hs : w.step clock (.update seen id u) = some w') (hr : w'.log = w.log ++ [r]) :
    (current w'.log).get? id = some r := by
  have hid : r.id = id := by
    unfold World.step at hs
    split at hs
    · rename_i log hlog
      cases hs
      rcases u.run_cases hlog with rfl | ⟨c', x, hc', -, hrow, -, -, rfl⟩ | ⟨c', x, hc', -, hrow, -, rfl⟩
      · have hlen := congrArg List.length hr
        simp [World.advance] at hlen
      · have hx : x = r := by simpa [World.advance] using hr
        exact hx ▸ hrow.id.trans (World.seenRow_mem hc').2
      · have hx : x = r := by simpa [World.advance] using hr
        exact hx ▸ hrow.id.trans (fold_mem hc').2
    · cases hs
  rw [hr, fold_append_live hc ht hid]
  exact Dict.get?_set_self ..

end

/-- **Updates survive later readers.** What an update appended to a pending row stays in the fold, group by group,
through every interleaving of updates that, on this row, do not write the group and started from a fold at least as new
as the update. -/
theorem update_survives (clock : Clock) {w₀ w w' : World} {seen : Seen} {id : String} {u : Update}
    {c r : OperatorInboxEntry} (hc : (current w₀.log).get? id = some c) (ht : c.terminal = false)
    (hu : w₀.step clock (.update seen id u) = some w) (hr : w.log = w₀.log ++ [r]) (G : FieldGroup)
    (h : Steps (inboxSystem clock) (ReadsLater w.past.length id G) w w') :
    ∃ e, (current w'.log).get? id = some e ∧ SameGroup r e G :=
  (shows_steps (shows_start (update_current hc ht hu hr)) h).now

/-! ## A consumption mark, kept and lost -/

def postedWorld : World := (runFrom (inboxSystem pythonClock) World.init [post]).get (by decide)

def mark : InboxAction := .update (.fold 0) "row-1" (.consume "2026-08-01T10:30:00+00:00" "lc-1" .cli)

def markedWorld : World := (postedWorld.step pythonClock mark).get (by decide)

def deliver (ago : Nat) : InboxAction :=
  .update (.fold ago) "row-1" (.recordDelivery { deliveryState := .delivered } "2026-08-01T10:31:00+00:00" none)

theorem marked_delivered_keeps_mark :
    ∃ w' e, markedWorld.step pythonClock (deliver 0) = some w' ∧ (current w'.log).get? "row-1" = some e ∧
      e.consumedAt = some "2026-08-01T10:30:00+00:00" := by
  obtain ⟨c, hc⟩ : ∃ c, (current postedWorld.log).get? "row-1" = some c := Option.isSome_iff_exists.mp (by decide)
  have hct : ((current postedWorld.log).get? "row-1").map OperatorInboxEntry.terminal = some false := by decide
  rw [hc] at hct
  obtain ⟨w', hw'⟩ : ∃ w', markedWorld.step pythonClock (deliver 0) = some w' := Option.isSome_iff_exists.mp (by decide)
  have hu : postedWorld.step pythonClock mark = some markedWorld := (Option.some_get _).symm
  have hlast : (markedWorld.log.getLast?.map OperatorInboxEntry.consumedAt) =
      some (some "2026-08-01T10:30:00+00:00") := by decide
  obtain ⟨r, hr⟩ : ∃ r, markedWorld.log = postedWorld.log ++ [r] := ⟨markedWorld.log.getLast (by decide), rfl⟩
  rw [hr, List.getLast?_concat] at hlast
  have hlater : ReadsLater markedWorld.past.length "row-1" .consumption markedWorld (deliver 0) := by
    intro _
    exact ⟨rfl, 0, rfl, by decide⟩
  obtain ⟨e, he, hG⟩ := update_survives pythonClock hc (Option.some.inj hct) hu hr .consumption
    (.tail .refl hlater hw')
  exact ⟨w', e, hw', he, hG.1.trans (Option.some.inj hlast)⟩

theorem stale_delivery_drops_mark :
    ¬ ∀ (w₀ w w' : World) (seen seen' : Seen) (id : String) (u u' : Update) (c r : OperatorInboxEntry) (G : FieldGroup),
        Reachable (inboxSystem pythonClock) always w₀ → (current w₀.log).get? id = some c → c.terminal = false →
        w₀.step pythonClock (.update seen id u) = some w → w.log = w₀.log ++ [r] → u.writes G = true →
        w.step pythonClock (.update seen' id u') = some w' → u'.writes G = false →
        ∃ e, (current w'.log).get? id = some e ∧ SameGroup r e G := by
  intro hall
  obtain ⟨c, hc⟩ : ∃ c, (current postedWorld.log).get? "row-1" = some c := Option.isSome_iff_exists.mp (by decide)
  have hct : ((current postedWorld.log).get? "row-1").map OperatorInboxEntry.terminal = some false := by decide
  rw [hc] at hct
  obtain ⟨w', hw'⟩ : ∃ w', markedWorld.step pythonClock (deliver 1) = some w' := Option.isSome_iff_exists.mp (by decide)
  have hlast : (markedWorld.log.getLast?.map OperatorInboxEntry.consumedAt) =
      some (some "2026-08-01T10:30:00+00:00") := by decide
  obtain ⟨r, hr⟩ : ∃ r, markedWorld.log = postedWorld.log ++ [r] := ⟨markedWorld.log.getLast (by decide), rfl⟩
  rw [hr, List.getLast?_concat] at hlast
  have hlost : ((markedWorld.step pythonClock (deliver 1)).map fun w =>
      ((current w.log).get? "row-1").map OperatorInboxEntry.consumedAt) = some (some none) := by decide
  obtain ⟨e, he, hG⟩ := hall postedWorld markedWorld w' (.fold 0) (.fold 1) "row-1" _ _ c r .consumption
    (reachable_of_runFrom (Option.some_get _).symm) hc (Option.some.inj hct) (Option.some_get _).symm hr rfl hw' rfl
  rw [hw', Option.map_some, he, Option.map_some, hG.1, Option.some.inj hlast] at hlost
  cases hlost

/-! ## Removed ids stay out

A removal drops every row of an id, and each writer that reads the log for
itself finds nothing there to write over. A writer with an older row in hand
appends its snapshot all the same: the id comes back exactly when that row was
read before the removal.
-/

def Update.blind (u : Update) (e : OperatorInboxEntry) : Bool :=
  match u with
  | consume .. => false
  | recordDelivery attempt .. => !deliveryLands e attempt
  | rebind .. => !e.terminal
  | renew .. => !e.terminal
  | recordAdapterCompletion .. => true

/-- No writer that appends blindly holds a row of an id the log no longer has. -/
def ReadsKept (w : World) : InboxAction → Prop
  | .update seen id u => ∀ e, w.seenRow seen id = some e → u.blind e = true → (current w.log).get? id ≠ none
  | _ => True

section
variable {clock : Clock} {log log' : InboxLog} {id : String}

theorem fold_append_absent {r : OperatorInboxEntry} (h : (current log).get? id = none) (hr : r.id ≠ id) :
    (current (log ++ [r])).get? id = none := by
  rw [current, fold_concat, if_neg hr]
  exact h

theorem fold_live_absent (h : LiveAppends log log') (hid : (current log).get? id = none) :
    (current log').get? id = none := by
  induction h with
  | done log => exact hid
  | @more log log' id' e u he _ hu _ ih =>
    refine ih (fold_append_absent hid ?_)
    intro heq
    rw [hu.id, (fold_mem he).2] at heq
    subst heq
    rw [hid] at he
    cases he

theorem fold_sub_absent (h : (current log).get? id = none) (hs : ∀ r ∈ log', r ∈ log) :
    (current log').get? id = none := by
  rw [current, foldOperatorInboxEntries, foldLog_eq_none] at h ⊢
  exact fun r hr => h r (hs r hr)

theorem Update.run_blind {u : Update} {seen : Option OperatorInboxEntry} (h : u.run clock log seen id = .ok log') :
    LiveAppends log log' ∨
    ∃ e r, seen = some e ∧ u.blind e = true ∧ SameRow e r ∧ log' = log ++ [r] := by
  cases u with
  | consume now consumedBy via =>
    rcases consume_cases h with rfl | ⟨e, r, he, ht, hr, rfl⟩
    · exact Or.inl (.done _)
    · exact Or.inl (.one he ht (consume_spec hr).1)
  | recordDelivery attempt now floor =>
    cases seen with
    | none => cases h
    | some e =>
      simp only [run, Inbox.recordDelivery] at h
      split at h
      · exact Or.inl (transition_live h)
      rename_i hl
      split at h
      · cases h
      rename_i r hr
      cases h
      exact Or.inr ⟨e, r, rfl, by simpa [blind] using hl, (deliverySnapshot_spec hr).1, rfl⟩
  | rebind owner now =>
    cases seen with
    | none => cases h
    | some e =>
      simp only [run, rebindEntry] at h
      split at h
      · cases h
        exact Or.inl (.done _)
      rename_i r hr
      cases h
      obtain ⟨hrow, -, ht⟩ := rebindSnapshot_spec hr
      exact Or.inr ⟨e, r, rfl, by simp [blind, ht], hrow, rfl⟩
  | renew renewal now =>
    cases seen with
    | none => cases h
    | some e =>
      simp only [run, Inbox.renew] at h
      split at h
      · cases h
        exact Or.inl (.done _)
      rename_i r hr
      cases h
      obtain ⟨hrow, -, ht⟩ := renewSnapshot_spec hr
      exact Or.inr ⟨e, r, rfl, by simp [blind, ht], hrow, rfl⟩
  | recordAdapterCompletion completion now =>
    cases seen with
    | none => cases h
    | some e =>
      cases h
      exact Or.inr ⟨e, completionSnapshot e completion now, rfl, rfl, ⟨rfl, rfl, rfl⟩, rfl⟩

end

section
variable {clock : Clock} {w w' : World} {a : InboxAction} {id : String}

theorem not_fresh_ne {r : OperatorInboxEntry} (hf : w.fresh r.id = true) (hid : w.fresh id = false) : r.id ≠ id := by
  intro heq
  subst heq
  rw [hf] at hid
  cases hid

theorem removed_step (hold : w.fresh id = false) (hout : (current w.log).get? id = none) (hok : ReadsKept w a)
    (hs : w.step clock a = some w') : (current w'.log).get? id = none := by
  cases a with
  | update seen id' u =>
    unfold World.step at hs
    split at hs
    · rename_i log hr
      cases hs
      rcases u.run_blind hr with hl | ⟨e, r, he, hb, hrow, rfl⟩
      · exact fold_live_absent hl hout
      refine fold_append_absent hout ?_
      intro hid
      have hidd : id' = id := (World.seenRow_mem he).2.symm.trans (hrow.id.symm.trans hid)
      subst hidd
      exact hok e he hb hout
    · cases hs
  | append | transition | transitionMany | delete | deleteByGate | compact | reconcileAndCompact =>
    rcases World.step_cases hs with ⟨r, hf, -, rfl⟩ | ⟨seen, id', u, c, r, ha, -⟩ | ⟨log, hl, rfl⟩ | ⟨p, rfl⟩ | ⟨gate, rfl⟩
    · exact fold_append_absent hout (not_fresh_ne hf hold)
    · cases ha
    · exact fold_live_absent hl hout
    · exact fold_sub_absent hout fun r hr => (List.mem_filter.mp hr).1
    · exact fold_sub_absent hout fun r hr => (List.mem_filter.mp hr).1

theorem fresh_step (hold : w.fresh id = false) (hs : w.step clock a = some w') : w'.fresh id = false := by
  have hpast : ∀ log, (w.advance log).fresh id = false := by
    intro log
    simp only [World.fresh, World.advance, List.all_cons] at hold ⊢
    rw [hold, Bool.and_false]
  unfold World.step at hs
  split at hs
  · cases hs
    exact hpast _
  · cases hs

end

/-- **Removed ids stay out**, in every run in which no blind update works on a row whose id is gone. -/
theorem removed_id_stays_out (clock : Clock) {w w' : World} {id : String} (hold : w.fresh id = false)
    (hout : (current w.log).get? id = none) (h : Steps (inboxSystem clock) ReadsKept w w') :
    (current w'.log).get? id = none := by
  refine (h.stays (I := fun s => s.fresh id = false) (P := fun s => (current s.log).get? id = none) ?_ ?_ hold hout).2
  · intro s a t hs _ hst
    exact fresh_step hs hst
  · intro s a t hs hp hok hst
    exact removed_step hs hp hok hst

/-! ## A renewal after the removal -/

def deletedWorld : World := (runFrom (inboxSystem pythonClock) World.init [post, .delete "row-1"]).get (by decide)

theorem deletedWorld_reachable : Reachable (inboxSystem pythonClock) always deletedWorld :=
  reachable_of_runFrom (Option.some_get _).symm

def renewFrom (ago : Nat) : InboxAction := .update (.fold ago) "row-1" (.renew {} "2026-08-01T12:00:00+00:00")

def postNext : InboxAction :=
  .append { ask := "Merge ready", response := "" } "row-2" "2026-08-01T11:30:00+00:00"
    { address := { lifecycleId := some "lc-1" } } { createdBy := "developer", createdVia := .dashboard }

def renewNext : InboxAction := .update (.fold 0) "row-2" (.renew {} "2026-08-01T12:00:00+00:00")

theorem deleted_row_stays_out :
    ∃ t w', deletedWorld.step pythonClock postNext = some t ∧ t.step pythonClock renewNext = some w' ∧
      (current w'.log).get? "row-1" = none := by
  have hnext : ((deletedWorld.step pythonClock postNext).map fun t =>
      ((current t.log).get? "row-2").isSome && (t.step pythonClock renewNext).isSome) = some true := by decide
  obtain ⟨t, ht⟩ : ∃ t, deletedWorld.step pythonClock postNext = some t := Option.isSome_iff_exists.mp (by decide)
  rw [ht, Option.map_some, Option.some.injEq, Bool.and_eq_true] at hnext
  obtain ⟨hrow, hsome⟩ := hnext
  obtain ⟨w', hw'⟩ := Option.isSome_iff_exists.mp hsome
  have hkept : ReadsKept t renewNext := by
    intro e _ _ hnone
    rw [hnone] at hrow
    cases hrow
  have hrun : Steps (inboxSystem pythonClock) ReadsKept deletedWorld w' :=
    .tail (.tail .refl (show ReadsKept deletedWorld postNext from trivial) ht) hkept hw'
  exact ⟨t, w', ht, hw', removed_id_stays_out pythonClock (w := deletedWorld) (by decide) (by decide) hrun⟩

theorem renewed_after_delete :
    ¬ ∀ (w w' : World) (id : String), Reachable (inboxSystem pythonClock) always w → w.fresh id = false →
        (current w.log).get? id = none → Steps (inboxSystem pythonClock) always w w' →
        (current w'.log).get? id = none := by
  intro hall
  have hback : ((deletedWorld.step pythonClock (renewFrom 1)).map fun t =>
      ((current t.log).get? "row-1").isSome) = some true := by decide
  obtain ⟨w', hw'⟩ : ∃ w', deletedWorld.step pythonClock (renewFrom 1) = some w' := Option.isSome_iff_exists.mp (by decide)
  have hrun : Steps (inboxSystem pythonClock) always deletedWorld w' :=
    .tail .refl (show always deletedWorld (renewFrom 1) from trivial) hw'
  have hout := hall deletedWorld w' "row-1" deletedWorld_reachable (by decide) (by decide) hrun
  rw [hw', Option.map_some, hout] at hback
  cases hback

end AgentsRemember.Inbox
