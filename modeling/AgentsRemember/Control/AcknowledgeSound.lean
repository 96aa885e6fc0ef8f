import AgentsRemember.Control.SettledSound

/-!
# An acknowledgement that is refused

The sweep at the start of a call lets the leases end that are over, and a second
sweep at that time finds none. An acknowledgement of no retained recovery, or of
one that is not awaiting it, leaves everything else as it was and is refused
again.
-/

namespace AgentsRemember.Control

open Lib

namespace World

/-- What `acknowledge_recovery` raises behind its sweep. -/
def acknowledgeFault (w : World) (recoveryRef : String) : Option String :=
  match w.channel.findRecovery recoveryRef with
  | none => some "the withdrawal recovery is not retained"
  | some (_, recovery) =>
    if !recovery.live then some "the withdrawal recovery is not awaiting acknowledgement"
    else if (w.channel.withdrawal recovery.withdrawRequestId).isNone then
      some "the recovery's withdrawal operation is not retained"
    else none

end World

section
variable {service : Service} {now : String} {c : Channel} {w : World}

theorem expireRecovery_recoveries (key : String) (recovery : RecoveryRecord) :
    (c.expireRecovery key recovery).recoveries = c.recoveries.set key (recovery.dispose .expired) := by
  unfold Channel.expireRecovery Channel.modifyWithdrawal
  split <;> rfl

/-- A recovery behind a sweep. -/
def swept (service : Service) (now : String) (recovery : RecoveryRecord) : RecoveryRecord :=
  if Channel.leaseOver service now recovery then recovery.dispose .expired else recovery

theorem sweepLoop_recoveries : ∀ (l : List (String × RecoveryRecord)) (c : Channel), (l.map Prod.fst).Nodup →
    (∀ e ∈ l, c.recoveries.get? e.1 = some e.2) → ∀ key, (Channel.sweepLoop service now c l).1.recoveries.get? key =
      if key ∈ l.map Prod.fst then (c.recoveries.get? key).map (swept service now) else c.recoveries.get? key := by
  intro l
  induction l with
  | nil => simp [Channel.sweepLoop]
  | cons e l ih =>
    obtain ⟨k, recovery⟩ := e
    intro c hn hget key
    rw [List.map_cons, List.nodup_cons] at hn
    have hk : c.recoveries.get? k = some recovery := hget (k, recovery) (by simp)
    rw [Channel.sweepLoop]
    split
    · rename_i hover
      have hother : ∀ e ∈ l, (c.expireRecovery k recovery).recoveries.get? e.1 = some e.2 := by
        intro e he
        have hne : k ≠ e.1 := by
          rintro rfl
          exact hn.1 (List.mem_map.mpr ⟨e, he, rfl⟩)
        rw [expireRecovery_recoveries, Dict.get?_set, if_neg hne]
        exact hget e (List.mem_cons_of_mem _ he)
      rw [ih _ hn.2 hother key, expireRecovery_recoveries, Dict.get?_set]
      by_cases hkey : k = key
      · subst hkey
        simp [hn.1, hk, swept, hover]
      · simp only [hkey, if_false, List.map_cons, List.mem_cons, Ne.symm hkey, false_or]
    · rename_i hover
      rw [ih c hn.2 (fun e he => hget e (List.mem_cons_of_mem _ he)) key]
      by_cases hkey : k = key
      · subst hkey
        simp [hn.1, hk, swept, hover]
      · simp only [List.map_cons, List.mem_cons, Ne.symm hkey, false_or]

theorem sweep_recoveries (key : String) :
    (w.sweep service now).channel.recoveries.get? key = (w.channel.recoveries.get? key).map (swept service now) := by
  show (Channel.sweepLoop service now w.channel w.channel.recoveries.entries).1.recoveries.get? key = _
  rw [sweepLoop_recoveries _ _ w.channel.recoveries.nodup fun e he => Dict.get?_eq_some.mpr he]
  split
  · rfl
  rename_i hnone
  rw [Dict.get?_eq_none.mpr hnone]
  rfl

theorem sweepLoop_idle : ∀ l : List (String × RecoveryRecord), (∀ e ∈ l, Channel.leaseOver service now e.2 = false) →
    Channel.sweepLoop service now c l = (c, [])
  | [], _ => rfl
  | e :: l, h => by
    rw [Channel.sweepLoop, h e (by simp)]
    exact sweepLoop_idle l fun e he => h e (List.mem_cons_of_mem _ he)

theorem leaseOver_swept (recovery : RecoveryRecord) : Channel.leaseOver service now (swept service now recovery) = false := by
  unfold swept
  split
  · rfl
  · rename_i hover
    simpa using hover

theorem sweep_sweep : (w.sweep service now).sweep service now = w.sweep service now := by
  have hidle : (w.sweep service now).channel.sweepRecoveries service now = ((w.sweep service now).channel, []) := by
    apply sweepLoop_idle
    intro e he
    have hget := Dict.get?_eq_some.mpr he
    rw [sweep_recoveries] at hget
    obtain ⟨recovery, -, hswept⟩ := Option.map_eq_some_iff.mp hget
    rw [← hswept]
    exact leaseOver_swept recovery
  rw [World.sweep, hidle]
  simp [World.log, World.disposals]

/-- **A refused acknowledgement** changes what its sweep changes and no more: the recoveries whose lease is over, and of no
withdrawal the phase or the response. Made again it changes nothing and is refused as before. -/
theorem acknowledge_refused (service : Service) (w : World) (recoveryRef : String) (disposition : Disposition) (now : String)
    (h : (w.sweep service now).acknowledgeFault recoveryRef = some "the withdrawal recovery is not retained" ∨
      (w.sweep service now).acknowledgeFault recoveryRef = some "the withdrawal recovery is not awaiting acknowledgement") :
    ∃ u, w.step service (.acknowledgeRecovery recoveryRef disposition now) = some u ∧ u = w.sweep service now ∧
      Quiet w.channel u.channel ∧ (∀ key, u.channel.recoveries.get? key = (w.channel.recoveries.get? key).map (swept service now)) ∧
      u.step service (.acknowledgeRecovery recoveryRef disposition now) = some u ∧
      (u.sweep service now).acknowledgeFault recoveryRef = (w.sweep service now).acknowledgeFault recoveryRef := by
  have hstays : (w.sweep service now).acknowledgeRecovery recoveryRef disposition = w.sweep service now := by
    unfold World.acknowledgeFault at h
    unfold World.acknowledgeRecovery
    cases hfind : (w.sweep service now).channel.findRecovery recoveryRef with
    | none => rfl
    | some found =>
    obtain ⟨key, recovery⟩ := found
    rw [hfind] at h
    by_cases hlive : recovery.live = true
    · by_cases hkept : ((w.sweep service now).channel.withdrawal recovery.withdrawRequestId).isNone = true <;>
        simp [hlive, hkept] at h
    · simp [hlive]
  refine ⟨w.sweep service now, congrArg some hstays, rfl, quiet_sweepLoop service now _ _, sweep_recoveries, ?_, by rw [sweep_sweep]⟩
  rw [World.step, sweep_sweep, hstays]

end

/-- The withdrawal is there, and no recovery goes by the ref. -/
theorem acknowledge_unknown :
    (settledWorld.sweep plainService "2026-08-01T10:00:05+00:00").acknowledgeFault "r:other" =
        some "the withdrawal recovery is not retained" ∧
      ∃ u, settledWorld.step plainService (.acknowledgeRecovery "r:other" .keepCurrentDraft "2026-08-01T10:00:05+00:00") = some u ∧
        Quiet settledWorld.channel u.channel := by
  have hfault : (settledWorld.sweep plainService "2026-08-01T10:00:05+00:00").acknowledgeFault "r:other" =
      some "the withdrawal recovery is not retained" := by decide
  obtain ⟨u, hu, -, hquiet, -⟩ :=
    acknowledge_refused plainService settledWorld "r:other" .keepCurrentDraft "2026-08-01T10:00:05+00:00" (.inl hfault)
  exact ⟨hfault, u, hu, hquiet⟩

/-- A lease that is over ends, whatever the call is about. -/
theorem refused_call_expires : ¬ ∀ (w u : World) (recoveryRef now : String) (disposition : Disposition),
    Reachable (withdrawalSystem plainService) always w →
    ((w.sweep plainService now).acknowledgeFault recoveryRef).isSome →
    w.step plainService (.acknowledgeRecovery recoveryRef disposition now) = some u → u.channel = w.channel := by
  intro hall
  obtain ⟨w, hw⟩ : ∃ w, runFrom (withdrawalSystem plainService) World.init lostThenReconciled = some w :=
    Option.isSome_iff_exists.mp (by decide)
  have hdiffer : (runFrom (withdrawalSystem plainService) World.init lostThenReconciled).all (fun w =>
      ((w.sweep plainService "2027-08-01T10:00:00+00:00").acknowledgeFault "r:other").isSome &&
      (w.step plainService (.acknowledgeRecovery "r:other" .keepCurrentDraft "2027-08-01T10:00:00+00:00")).any fun u =>
        u.channel.recoveries.entries ≠ w.channel.recoveries.entries) = true := by decide
  rw [hw, Option.all_some, Bool.and_eq_true, Option.any_eq_true] at hdiffer
  obtain ⟨hfault, u, hu, hne⟩ := hdiffer
  have hsame := hall w u "r:other" "2027-08-01T10:00:00+00:00" .keepCurrentDraft (reachable_of_runFrom hw) hfault hu
  rw [hsame] at hne
  exact of_decide_eq_true hne rfl

end AgentsRemember.Control
