import AgentsRemember.Control.World

/-!
# A settled withdrawal is not driven again

Most calls leave a record as its driver settled it, and leave request ids where
they are. Only the lock holder stores a record or writes a driver's result into
one; a reconcile that had to wait for the lock does not look at the phase again.
-/

namespace AgentsRemember.Control

open Lib
open Harness (SubmissionLifecycleState SubmissionSource ControlOperationKind AssetReference WithdrawalResult)

structure Undriven (r r' : WithdrawalRecord) : Prop where
  phase : r'.phase = r.phase
  outcome : r'.outcome = r.outcome
  response : r'.response = r.response
  key : r'.key = r.key
  recoveryState : r'.recoveryState = r.recoveryState ∨ r'.recoveryState = .acknowledged ∨ r'.recoveryState = .expired

theorem Undriven.refl (r : WithdrawalRecord) : Undriven r r := ⟨rfl, rfl, rfl, rfl, Or.inl rfl⟩

theorem Undriven.trans {r r' r'' : WithdrawalRecord} (h : Undriven r r') (h' : Undriven r' r'') : Undriven r r'' where
  phase := h'.phase.trans h.phase
  outcome := h'.outcome.trans h.outcome
  response := h'.response.trans h.response
  key := h'.key.trans h.key
  recoveryState := by
    rcases h'.recoveryState with hs | hs
    · rw [hs]
      exact h.recoveryState
    · exact Or.inr hs

theorem undriven_expire (r : WithdrawalRecord) : Undriven r r.expire := by
  unfold WithdrawalRecord.expire
  split
  · exact ⟨rfl, rfl, rfl, rfl, Or.inr (Or.inr rfl)⟩
  · exact .refl r

theorem undriven_acknowledge (r : WithdrawalRecord) : Undriven r r.acknowledge :=
  ⟨rfl, rfl, rfl, rfl, Or.inr (Or.inl rfl)⟩

/-! ## Calls that drive nothing -/

structure Quiet (c c' : Channel) : Prop where
  length : c'.records.length = c.records.length
  records : ∀ (i : Nat) (r : WithdrawalRecord), c.records[i]? = some r → ∃ r', c'.records[i]? = some r' ∧ Undriven r r'
  withdrawals : ∀ wid, c'.withdrawals.get? wid = c.withdrawals.get? wid

section
variable {service : Service} {c c' : Channel}

theorem quiet_of_eq (hr : c'.records = c.records) (hw : ∀ wid, c'.withdrawals.get? wid = c.withdrawals.get? wid) :
    Quiet c c' where
  length := by rw [hr]
  records := fun i r h => ⟨r, by rw [hr, h], .refl r⟩
  withdrawals := hw

variable {c'' : Channel} {i : Nat} {f : WithdrawalRecord → WithdrawalRecord} {wid now : String}
  {authorization : AuthorizationBinding} {ticket : WithdrawalTicket} {record : WithdrawalRecord} {w w' : World}
  {x : Waiter} {items : List OperationTimelineItem} {outcome : CrossingOutcome}

theorem Quiet.trans (h : Quiet c c') (h' : Quiet c' c'') : Quiet c c'' where
  length := h'.length.trans h.length
  records := by
    intro i r hr
    obtain ⟨r', hr', hu⟩ := h.records i r hr
    obtain ⟨r'', hr'', hu'⟩ := h'.records i r' hr'
    exact ⟨r'', hr'', hu.trans hu'⟩
  withdrawals := fun wid => (h'.withdrawals wid).trans (h.withdrawals wid)

theorem quiet_modifyRecord (hf : ∀ r, Undriven r (f r)) : Quiet c (c.modifyRecord i f) where
  length := List.length_modify ..
  records := by
    intro j r hr
    simp only [Channel.modifyRecord, List.getElem?_modify, hr]
    by_cases hij : i = j
    · exact ⟨f r, by simp [hij], hf r⟩
    · exact ⟨r, by simp [hij], .refl r⟩
  withdrawals := fun _ => rfl

theorem quiet_modifyWithdrawal (hf : ∀ r, Undriven r (f r)) : Quiet c (c.modifyWithdrawal wid f) := by
  unfold Channel.modifyWithdrawal
  cases c.withdrawals.get? wid with
  | none => exact quiet_of_eq rfl fun _ => rfl
  | some i => exact quiet_modifyRecord hf

theorem quiet_expireRecovery (key : String) (recovery : RecoveryRecord) : Quiet c (c.expireRecovery key recovery) := by
  have hdispose : Quiet c
      { c with
        recoveries := c.recoveries.set key (recovery.dispose .expired)
        attachments := deleteRecoverable c.attachments recovery.operation.operationId } := quiet_of_eq rfl fun _ => rfl
  exact hdispose.trans (quiet_modifyWithdrawal undriven_expire)

theorem quiet_sweepLoop (service : Service) (now : String) : ∀ (l : List (String × RecoveryRecord)) (c : Channel),
    Quiet c (Channel.sweepLoop service now c l).1 := by
  intro l
  induction l with
  | nil =>
    intro c
    exact quiet_of_eq rfl fun _ => rfl
  | cons e l ih =>
    intro c
    obtain ⟨key, recovery⟩ := e
    rw [Channel.sweepLoop]
    by_cases hl : Channel.leaseOver service now recovery = true
    · rw [if_pos hl]
      exact (quiet_expireRecovery key recovery).trans (ih _)
    · rw [if_neg hl]
      exact ih c

theorem quiet_sweep (w : World) (now : String) : Quiet w.channel (w.sweep service now).channel :=
  quiet_sweepLoop service now _ _

theorem quiet_moveToEnd (wid : String) : Quiet c (c.moveToEnd wid) :=
  quiet_of_eq rfl fun k => Dict.get?_moveToEnd _ _ k

@[simp] theorem project_channel (w : World) (r : WithdrawalRecord) : (w.project r).channel = w.channel := by
  unfold World.project
  split <;> rfl

@[simp] theorem project_driver (w : World) (r : WithdrawalRecord) : (w.project r).driver = w.driver := by
  unfold World.project
  split <;> rfl

theorem evictWithdrawals_spec : ∀ (n : Nat) (c : Channel),
    (Channel.evictWithdrawals n c).records = c.records ∧ (Channel.evictWithdrawals n c).recoveries = c.recoveries ∧
      ∀ wid, (Channel.evictWithdrawals n c).withdrawals.get? wid = c.withdrawals.get? wid ∨
        (Channel.evictWithdrawals n c).withdrawals.get? wid = none := by
  intro n
  induction n with
  | zero =>
    intro c
    exact ⟨rfl, rfl, fun wid => Or.inl rfl⟩
  | succ n ih =>
    intro c
    rw [Channel.evictWithdrawals]
    cases c.withdrawalVictim with
    | none => exact ⟨rfl, rfl, fun wid => Or.inl rfl⟩
    | some victim =>
      obtain ⟨hr, hrec, hw⟩ := ih { c with withdrawals := c.withdrawals.erase victim }
      refine ⟨hr, hrec, fun wid => ?_⟩
      rcases hw wid with hw | hw
      · rw [hw, Dict.get?_erase]
        by_cases hv : wid = victim
        · exact Or.inr (if_pos hv)
        · exact Or.inl (if_neg hv)
      · exact Or.inr hw

theorem evictRecoveries_spec : ∀ (n : Nat) (c : Channel),
    (Channel.evictRecoveries n c).1.records = c.records ∧ (Channel.evictRecoveries n c).1.withdrawals = c.withdrawals := by
  intro n
  induction n with
  | zero =>
    intro c
    exact ⟨rfl, rfl⟩
  | succ n ih =>
    intro c
    rw [Channel.evictRecoveries]
    split
    · exact ⟨rfl, rfl⟩
    · exact ih _

theorem storeRecovery_spec (c : Channel) (recovery : RecoveryRecord) :
    (c.storeRecovery recovery).1.records = c.records ∧ (c.storeRecovery recovery).1.withdrawals = c.withdrawals :=
  evictRecoveries_spec _ _

theorem applyWithdrawalResult_spec {result : WithdrawalResult} {evicted : List RecoveryRecord}
    (h : applyWithdrawalResult service authorization c ticket result now = some (record, c', evicted)) :
    c'.records = c.records ∧ c'.withdrawals = c.withdrawals ∧ record.key = ticket.key := by
  rcases applyWithdrawalResult_cases h with ⟨hf, rfl, -⟩ | ⟨offer, attachments, -, -, rfl, ⟨-, hstore⟩ | ⟨-, rfl, -⟩⟩
  · refine ⟨rfl, rfl, ?_⟩
    unfold failureForResult at hf
    split at hf <;> cases hf <;> rfl
  · obtain ⟨hr, hw⟩ := storeRecovery_spec { c with attachments := attachments } (offeredRecovery ticket offer)
    rw [hstore] at hr hw
    exact ⟨hr, hw, rfl⟩
  · exact ⟨rfl, rfl, rfl⟩

/-! ## One step -/

structure Keeps (c c' : Channel) : Prop where
  settled : ∀ (i : Nat) (r : WithdrawalRecord), c.records[i]? = some r → r.phase = .settled →
    ∃ r', c'.records[i]? = some r' ∧ Undriven r r'
  retained : ∀ wid i, c.withdrawals.get? wid = some i → c'.withdrawals.get? wid = some i ∨ c'.withdrawals.get? wid = none

def Driver.ticket? : Driver → Option WithdrawalTicket
  | reading _ ticket => some ticket
  | crossing _ ticket => some ticket
  | redriving .. => none

structure LockInv (w : World) : Prop where
  placed : ∀ wid i, w.channel.withdrawals.get? wid = some i → i < w.channel.records.length
  fresh : ∀ d ticket, w.driver = some d → d.ticket? = some ticket →
    w.channel.withdrawals.get? ticket.withdrawRequestId = none
  unknown : ∀ a i, w.driver = some (.redriving a i) → ∃ r, w.channel.records[i]? = some r ∧ r.phase = .unknown

/-- A reconcile that waited for the lock finds its record still unsettled. -/
def FindsUnknown (w : World) : Action → Prop
  | .acquire =>
    match w.waiting with
    | .reconcile _ i :: _ => (w.channel.records[i]?).any (fun r => r.phase = .unknown) = true
    | _ => True
  | _ => True

instance (w : World) : (a : Action) → Decidable (FindsUnknown w a)
  | .acquire =>
    match hw : w.waiting with
    | .reconcile _ i :: _ =>
      decidable_of_iff ((w.channel.records[i]?).any (fun r => r.phase = .unknown) = true) (by simp [FindsUnknown, hw])
    | .withdraw .. :: _ => .isTrue (by simp [FindsUnknown, hw])
    | [] => .isTrue (by simp [FindsUnknown, hw])
  | .withdraw .. | .withdrawStatus .. | .fetchRecovery .. | .acknowledgeRecovery .. | .sweep _ | .cancelWaiter _ | .timeline _
  | .crossed .. | .abandon | .submits .. | .rowWithdrawn _ => .isTrue trivial

theorem Quiet.keeps (h : Quiet c c') : Keeps c c' where
  settled := fun i r hr _ => h.records i r hr
  retained := fun wid i hi => Or.inl (by rw [h.withdrawals, hi])

theorem lockInv_quiet (h : LockInv w) (hq : Quiet w.channel w'.channel) (hd : w'.driver = w.driver) : LockInv w' where
  placed := by
    intro wid i hi
    rw [hq.withdrawals] at hi
    rw [hq.length]
    exact h.placed wid i hi
  fresh := by
    intro d ticket hdr ht
    rw [hq.withdrawals]
    exact h.fresh d ticket (hd ▸ hdr) ht
  unknown := by
    intro a i hdr
    obtain ⟨r, hr, hp⟩ := h.unknown a i (hd ▸ hdr)
    obtain ⟨r', hr', hu⟩ := hq.records i r hr
    exact ⟨r', hr', hu.phase.trans hp⟩

theorem lockInv_free (hd : w.driver = none)
    (hp : ∀ wid i, w.channel.withdrawals.get? wid = some i → i < w.channel.records.length) : LockInv w where
  placed := hp
  fresh := fun d ticket hdr => by rw [hd] at hdr; cases hdr
  unknown := fun a i hdr => by rw [hd] at hdr; cases hdr

theorem withdrawal_eq_none (hp : ∀ i, c.withdrawals.get? wid = some i → i < c.records.length)
    (h : c.withdrawal wid = none) : c.withdrawals.get? wid = none := by
  cases hg : c.withdrawals.get? wid with
  | none => rfl
  | some i =>
    simp only [Channel.withdrawal, hg, Option.bind_eq_bind, Option.bind_some] at h
    rw [List.getElem?_eq_getElem (hp i hg)] at h
    cases h

theorem withdrawal_eq_some {r : WithdrawalRecord} (h : c.withdrawal wid = some (i, r)) :
    c.withdrawals.get? wid = some i ∧ c.records[i]? = some r := by
  obtain ⟨j, hj, h⟩ := Option.bind_eq_some_iff.mp h
  obtain ⟨r', hr, h⟩ := Option.bind_eq_some_iff.mp h
  cases h
  exact ⟨hj, hr⟩

/-! ### The lock -/

@[simp] theorem enter_channel (w : World) (x : Waiter) : (w.enter x).channel = w.channel := by
  cases x with
  | withdraw authorization ticket =>
    simp only [World.enter]
    split
    · split <;> rfl
    · rfl
  | reconcile => rfl

@[simp] theorem awaitLock_channel (w : World) (x : Waiter) : (w.awaitLock x).channel = w.channel := by
  unfold World.awaitLock
  split
  · exact enter_channel w x
  · rfl

theorem lockInv_enter (h : LockInv w)
    (hx : ∀ a i, x = .reconcile a i → ∃ r, w.channel.records[i]? = some r ∧ r.phase = .unknown) :
    LockInv (w.enter x) := by
  cases x with
  | withdraw authorization ticket =>
    simp only [World.enter]
    split
    · split
      · exact h
      · exact lockInv_quiet h (quiet_of_eq rfl fun _ => rfl) rfl
    rename_i hnone
    refine ⟨h.placed, fun d t hd ht => ?_, fun a i hd => by cases hd⟩
    cases hd
    cases ht
    exact withdrawal_eq_none (h.placed _) hnone
  | reconcile authorization i =>
    refine ⟨h.placed, fun d t hd ht => ?_, fun a j hd => ?_⟩
    · cases hd
      cases ht
    · cases hd
      exact hx _ _ rfl

theorem lockInv_awaitLock (h : LockInv w)
    (hx : ∀ a i, x = .reconcile a i → ∃ r, w.channel.records[i]? = some r ∧ r.phase = .unknown) :
    LockInv (w.awaitLock x) := by
  unfold World.awaitLock
  split
  · exact lockInv_enter h hx
  · exact lockInv_quiet h (quiet_of_eq rfl fun _ => rfl) rfl

theorem lockInv_sweep (h : LockInv w) (now : String) : LockInv (w.sweep service now) :=
  lockInv_quiet h (quiet_sweep w now) rfl

theorem lockInv_project (h : LockInv w) (r : WithdrawalRecord) : LockInv (w.project r) :=
  lockInv_quiet h (quiet_of_eq (by simp) (by simp)) (by simp)

theorem lockInv_moveToEnd (h : LockInv w) (wid : String) :
    LockInv { w with channel := w.channel.moveToEnd wid } := lockInv_quiet h (quiet_moveToEnd wid) rfl

theorem keeps_storeWithdrawal (h : c.withdrawals.get? record.withdrawRequestId = none) :
    Keeps c (c.storeWithdrawal record) := by
  obtain ⟨hr, -, hw⟩ := evictWithdrawals_spec
    ((c.withdrawals.set record.withdrawRequestId c.records.length).entries.length - maxWithdrawalsPerChannel)
    { c with records := c.records ++ [record], withdrawals := c.withdrawals.set record.withdrawRequestId c.records.length }
  refine ⟨fun i r hi _ => ⟨r, ?_, .refl r⟩, fun wid i hi => ?_⟩
  · rw [Channel.storeWithdrawal, hr]
    exact List.getElem?_append_left (List.getElem?_eq_some_iff.mp hi).1 ▸ hi
  have hne : record.withdrawRequestId ≠ wid := by
    intro heq
    rw [← heq, h] at hi
    cases hi
  rcases hw wid with hw | hw
  · left
    rw [Channel.storeWithdrawal, hw, Dict.get?_set_ne _ _ hne, hi]
  · exact Or.inr hw

theorem placed_storeWithdrawal (hp : ∀ wid i, c.withdrawals.get? wid = some i → i < c.records.length) (wid : String)
    (i : Nat) (hi : (c.storeWithdrawal record).withdrawals.get? wid = some i) :
    i < (c.storeWithdrawal record).records.length := by
  obtain ⟨hr, -, hw⟩ := evictWithdrawals_spec
    ((c.withdrawals.set record.withdrawRequestId c.records.length).entries.length - maxWithdrawalsPerChannel)
    { c with records := c.records ++ [record], withdrawals := c.withdrawals.set record.withdrawRequestId c.records.length }
  rw [Channel.storeWithdrawal] at hi ⊢
  rw [hr, List.length_append, List.length_singleton]
  rcases hw wid with hw | hw
  · rw [hw, Dict.get?_set] at hi
    split at hi
    · cases hi
      omega
    · have := hp wid i hi
      omega
  · rw [hw] at hi
    cases hi

theorem settle_kept (h : LockInv w) (hn : w.channel.withdrawals.get? record.withdrawRequestId = none) :
    LockInv (w.settle record) ∧ Keeps w.channel (w.settle record).channel :=
  ⟨lockInv_free rfl (placed_storeWithdrawal h.placed), keeps_storeWithdrawal hn⟩

theorem refusal_key (h : refusal ticket items = some record) : record.key = ticket.key := by
  unfold refusal at h
  split at h
  · cases h
    rfl
  · split at h <;> cases h
    rfl

/-! ### The calls -/

theorem Keeps.after_quiet (h : Quiet c c') (h' : Keeps c' c'') : Keeps c c'' where
  settled := by
    intro i r hr hp
    obtain ⟨r', hr', hu⟩ := h.records i r hr
    obtain ⟨r'', hr'', hu'⟩ := h'.settled i r' hr' (hu.phase.trans hp)
    exact ⟨r'', hr'', hu.trans hu'⟩
  retained := by
    intro wid i hi
    rw [← h.withdrawals] at hi
    exact h'.retained wid i hi

theorem withdraw_kept (h : LockInv w) (authorization : AuthorizationBinding) (identity : OperationIdentity)
    (operationRef wid : String) :
    LockInv (w.withdraw service authorization identity operationRef wid) ∧
      Quiet w.channel (w.withdraw service authorization identity operationRef wid).channel := by
  unfold World.withdraw
  cases hf : w.channel.withdrawal wid with
  | none =>
    refine ⟨lockInv_awaitLock h ?_, quiet_of_eq (by simp) (by simp)⟩
    intro a i hx
    cases hx
  | some found =>
    obtain ⟨i, record⟩ := found
    by_cases hfp : record.fingerprint = service.operationFingerprint authorization identity wid
    · simp only [hfp, ne_eq, not_true, if_false]
      exact ⟨lockInv_quiet h (quiet_moveToEnd wid) rfl, quiet_moveToEnd wid⟩
    · simp only [ne_eq, hfp, not_false_eq_true, if_true]
      exact ⟨h, quiet_of_eq rfl fun _ => rfl⟩

theorem withdrawStatus_kept (h : LockInv w) (authorization : AuthorizationBinding) (identity : OperationIdentity)
    (wid : String) (reconcile : Bool) :
    LockInv (w.withdrawStatus authorization identity wid reconcile) ∧
      Quiet w.channel (w.withdrawStatus authorization identity wid reconcile).channel := by
  unfold World.withdrawStatus
  cases hf : w.channel.withdrawal wid with
  | none => exact ⟨h, quiet_of_eq rfl fun _ => rfl⟩
  | some found =>
    obtain ⟨i, record⟩ := found
    by_cases hi : identity = record.operation
    · simp only [hi, ne_eq, not_true, if_false]
      by_cases hr : reconcile = true ∧ record.phase = .unknown
      · simp only [hr, and_self, if_true]
        refine ⟨lockInv_awaitLock (lockInv_moveToEnd h wid) fun a j hx => ?_, ?_⟩
        · cases hx
          exact ⟨record, (withdrawal_eq_some hf).2, hr.2⟩
        · rw [awaitLock_channel]
          exact quiet_moveToEnd wid
      simp only [hr, if_false]
      refine ⟨lockInv_project (lockInv_moveToEnd h wid) record, ?_⟩
      rw [project_channel]
      exact quiet_moveToEnd wid
    · simp only [ne_eq, hi, not_false_eq_true, if_true]
      exact ⟨h, quiet_of_eq rfl fun _ => rfl⟩

theorem fetchRecovery_kept (recoveryRef : String) :
    (w.fetchRecovery recoveryRef).channel = w.channel ∧ (w.fetchRecovery recoveryRef).driver = w.driver := by
  unfold World.fetchRecovery
  split
  · exact ⟨rfl, rfl⟩
  split
  · exact ⟨rfl, rfl⟩
  · split <;> exact ⟨rfl, rfl⟩

theorem acknowledgeRecovery_kept (recoveryRef : String) (disposition : Disposition) :
    Quiet w.channel (w.acknowledgeRecovery recoveryRef disposition).channel ∧
      (w.acknowledgeRecovery recoveryRef disposition).driver = w.driver := by
  unfold World.acknowledgeRecovery
  split
  · exact ⟨quiet_of_eq rfl fun _ => rfl, rfl⟩
  rename_i key recovery _
  have hdisposed : Quiet w.channel
      { w.channel with recoveries := w.channel.recoveries.set key (recovery.dispose .acknowledged) } :=
    quiet_of_eq rfl fun _ => rfl
  split
  · exact ⟨quiet_of_eq rfl fun _ => rfl, rfl⟩
  dsimp only
  split
  · exact ⟨hdisposed, rfl⟩
  rw [project_channel, project_driver]
  refine ⟨hdisposed.trans ?_, rfl⟩
  split
  · exact (quiet_modifyRecord undriven_acknowledge).trans (quiet_of_eq rfl fun _ => rfl)
  · exact quiet_modifyRecord undriven_acknowledge

theorem timeline_kept (h : LockInv w) (hs : w.timeline items = some w') : LockInv w' ∧ Keeps w.channel w'.channel := by
  unfold World.timeline at hs
  split at hs
  · cases hs
  split at hs
  · rename_i authorization ticket hd
    have hfresh := h.fresh _ ticket hd rfl
    split at hs
    · rename_i failure hf
      cases hs
      have hkey := congrArg RecoveryKey.withdrawRequestId (refusal_key hf)
      exact settle_kept h (by rw [show failure.withdrawRequestId = ticket.withdrawRequestId from hkey]; exact hfresh)
    cases hs
    refine ⟨⟨h.placed, fun d t hd' ht => ?_, fun a i hd' => by cases hd'⟩, (quiet_of_eq rfl fun _ => rfl).keeps⟩
    cases hd'
    cases ht
    exact hfresh
  · cases hs

theorem noteWithdrawn_channel (w : World) (identity : OperationIdentity) (result : WithdrawalResult) :
    (w.noteWithdrawn identity result).channel = w.channel := by
  unfold World.noteWithdrawn
  split <;> rfl

theorem lockInv_release (h : LockInv w) : LockInv w.release := lockInv_free rfl h.placed

theorem placed_congr {c' : Channel} (hr : c'.records = c.records) (hw : c'.withdrawals = c.withdrawals)
    (hp : ∀ wid i, c.withdrawals.get? wid = some i → i < c.records.length) :
    ∀ wid i, c'.withdrawals.get? wid = some i → i < c'.records.length := by
  rw [hr, hw]
  exact hp

theorem placed_modifyRecord {j : Nat} (hp : ∀ wid i, c.withdrawals.get? wid = some i → i < c.records.length) :
    ∀ wid i, (c.modifyRecord j f).withdrawals.get? wid = some i → i < (c.modifyRecord j f).records.length := by
  intro wid i hi
  rw [Channel.modifyRecord, List.length_modify]
  exact hp wid i hi

theorem driven_kept (h : LockInv w) (hd : w.driver = some (.crossing authorization ticket)) :
    LockInv (w.driven service authorization ticket outcome now) ∧
      Keeps w.channel (w.driven service authorization ticket outcome now).channel := by
  have hfresh := h.fresh _ ticket hd rfl
  have hquiet : Keeps w.channel w.channel := (quiet_of_eq rfl fun _ => rfl).keeps
  cases outcome with
  | answered result =>
    simp only [World.driven]
    split
    · have hc : (w.noteWithdrawn ticket.identity result).release.channel = w.channel := noteWithdrawn_channel ..
      rw [hc]
      exact ⟨lockInv_free rfl (by rw [hc]; exact h.placed), hquiet⟩
    rename_i record c evicted happly
    obtain ⟨hr, hw, hkey⟩ := applyWithdrawalResult_spec happly
    have hwid : record.withdrawRequestId = ticket.withdrawRequestId := congrArg RecoveryKey.withdrawRequestId hkey
    have hq : Quiet w.channel c := quiet_of_eq hr fun wid => by rw [hw]
    have hn : c.withdrawals.get? record.withdrawRequestId = none := by rw [hwid, hw, hfresh]
    refine ⟨lockInv_free rfl (placed_storeWithdrawal ?_), Keeps.after_quiet hq (keeps_storeWithdrawal hn)⟩
    exact placed_congr hr hw h.placed
  | epochMismatch => exact settle_kept h hfresh
  | maybeSent message => exact settle_kept h hfresh
  | notSent => exact ⟨lockInv_release h, hquiet⟩
  | controlError message => exact ⟨lockInv_release h, hquiet⟩

theorem redriven_kept (h : LockInv w) (hi : w.channel.records[i]? = some record) (hp : record.phase = .unknown) :
    LockInv (w.redriven service authorization i record outcome now) ∧
      Keeps w.channel (w.redriven service authorization i record outcome now).channel := by
  have hquiet : Keeps w.channel w.channel := (quiet_of_eq rfl fun _ => rfl).keeps
  cases outcome with
  | answered result =>
    simp only [World.redriven]
    split
    · have hc : (w.noteWithdrawn record.operation result).release.channel = w.channel := noteWithdrawn_channel ..
      rw [hc]
      exact ⟨lockInv_free rfl (by rw [hc]; exact h.placed), hquiet⟩
    rename_i fresh c evicted happly
    obtain ⟨hr, hw, -⟩ := applyWithdrawalResult_spec happly
    refine ⟨lockInv_project (lockInv_free rfl ?_) _, ?_⟩
    · exact placed_modifyRecord (placed_congr hr hw h.placed)
    rw [project_channel]
    refine ⟨fun j r hr' hs => ⟨r, ?_, .refl r⟩, fun wid j hj => Or.inl ?_⟩
    · have hne : i ≠ j := by
        intro heq
        subst heq
        rw [hi, Option.some.injEq] at hr'
        rw [← hr', hp] at hs
        cases hs
      simp [World.release, World.log, Channel.modifyRecord, hr, hr', hne]
    · simpa [World.release, World.log, Channel.modifyRecord, hw] using hj
  | epochMismatch => exact ⟨lockInv_release h, hquiet⟩
  | notSent => exact ⟨lockInv_release h, hquiet⟩
  | maybeSent message =>
    refine ⟨lockInv_project (lockInv_release h) _, ?_⟩
    rw [World.redriven, project_channel]
    exact hquiet
  | controlError message =>
    have hq : Quiet w.channel (w.channel.modifyRecord i fun record => { record with detail := some message }) :=
      quiet_modifyRecord fun r => ⟨rfl, rfl, rfl, rfl, Or.inl rfl⟩
    refine ⟨lockInv_project (lockInv_free rfl ?_) _, ?_⟩
    · exact placed_modifyRecord h.placed
    · rw [World.redriven, project_channel]
      exact hq.keeps

theorem crossed_kept (h : LockInv w) (hs : w.crossed service outcome now = some w') :
    LockInv w' ∧ Keeps w.channel w'.channel := by
  unfold World.crossed at hs
  split at hs
  · rename_i authorization ticket hd
    cases hs
    exact driven_kept h hd
  · rename_i authorization i hd
    obtain ⟨record, hi, rfl⟩ := Option.map_eq_some_iff.mp hs
    obtain ⟨r, hr, hp⟩ := h.unknown _ _ hd
    rw [hi, Option.some.injEq] at hr
    rw [← hr] at hp
    exact redriven_kept h hi hp
  · cases hs

theorem acquire_kept (h : LockInv w) (hok : FindsUnknown w .acquire) (hs : w.acquire = some w') :
    LockInv w' ∧ Quiet w.channel w'.channel := by
  unfold World.acquire at hs
  split at hs
  · rename_i waiter rest hd hwait
    cases hs
    refine ⟨lockInv_enter (lockInv_quiet h (quiet_of_eq rfl fun _ => rfl) rfl) ?_, quiet_of_eq (by simp) (by simp)⟩
    intro a i hx
    subst hx
    simp only [FindsUnknown, hwait, Option.any_eq_true, decide_eq_true_eq] at hok
    exact hok
  · cases hs

theorem step_kept {a : Action} (h : LockInv w) (hok : FindsUnknown w a) (hs : World.step service w a = some w') :
    LockInv w' ∧ Keeps w.channel w'.channel := by
  cases a with
  | withdraw authorization identity operationRef wid now =>
    cases hs
    have hswept : LockInv (w.sweep service now) := lockInv_sweep h now
    obtain ⟨hinv, hq⟩ := withdraw_kept hswept authorization identity operationRef wid
    exact ⟨hinv, ((quiet_sweep w now).trans hq).keeps⟩
  | withdrawStatus authorization identity wid reconcile now =>
    cases hs
    have hswept : LockInv (w.sweep service now) := lockInv_sweep h now
    obtain ⟨hinv, hq⟩ := withdrawStatus_kept hswept authorization identity wid reconcile
    exact ⟨hinv, ((quiet_sweep w now).trans hq).keeps⟩
  | fetchRecovery recoveryRef now =>
    cases hs
    obtain ⟨hc, hd⟩ := fetchRecovery_kept (w := w.sweep service now) recoveryRef
    have hq : Quiet w.channel ((w.sweep service now).fetchRecovery recoveryRef).channel := by
      rw [hc]
      exact quiet_sweep w now
    exact ⟨lockInv_quiet h hq hd, hq.keeps⟩
  | acknowledgeRecovery recoveryRef disposition now =>
    cases hs
    obtain ⟨hq, hd⟩ := acknowledgeRecovery_kept (w := w.sweep service now) recoveryRef disposition
    exact ⟨lockInv_quiet (lockInv_sweep h now) hq hd, ((quiet_sweep w now).trans hq).keeps⟩
  | sweep now =>
    cases hs
    exact ⟨lockInv_sweep h now, (quiet_sweep w now).keeps⟩
  | acquire =>
    obtain ⟨hinv, hq⟩ := acquire_kept h hok hs
    exact ⟨hinv, hq.keeps⟩
  | cancelWaiter position =>
    cases hs
    exact ⟨lockInv_quiet h (quiet_of_eq rfl fun _ => rfl) rfl, (quiet_of_eq rfl fun _ => rfl).keeps⟩
  | timeline items => exact timeline_kept h hs
  | crossed outcome now => exact crossed_kept h hs
  | abandon =>
    obtain ⟨d, -, rfl⟩ := Option.map_eq_some_iff.mp hs
    exact ⟨lockInv_release h, (quiet_of_eq rfl fun _ => rfl).keeps⟩
  | submits journal attachments =>
    cases hs
    have hq : Quiet w.channel { w.channel with journal := journal, attachments := attachments } :=
      quiet_of_eq rfl fun _ => rfl
    exact ⟨lockInv_quiet h hq rfl, hq.keeps⟩
  | rowWithdrawn identity =>
    cases hs
    exact ⟨lockInv_quiet h (quiet_of_eq rfl fun _ => rfl) rfl, (quiet_of_eq rfl fun _ => rfl).keeps⟩

theorem lockInv_init : LockInv World.init := by
  refine lockInv_free rfl ?_
  intro wid i hi
  cases hi

/-- From here on the withdrawal is as its driver settled it, but for the disposal of its recovery; its request id names
it until it is evicted. -/
structure SettledKept (service : Service) (w w' : World) : Prop where
  record : ∀ (i : Nat) (r : WithdrawalRecord), w.channel.records[i]? = some r → r.phase = .settled →
    ∃ r', w'.channel.records[i]? = some r' ∧ Undriven r r'
  retained : ∀ wid i, w.channel.withdrawals.get? wid = some i → w'.channel.withdrawals.get? wid = some i ∨
    ∃ v, Steps (withdrawalSystem service) always w v ∧ Steps (withdrawalSystem service) always v w' ∧
      v.channel.withdrawals.get? wid = none

/-- **A settled withdrawal is never overwritten by a driver**, in every run in which each reconcile that waited for the
session lock finds its record still unsettled when it gets it. -/
theorem settled_never_overwritten (service : Service) {w w' : World}
    (hw : Reachable (withdrawalSystem service) FindsUnknown w) (h : Steps (withdrawalSystem service) FindsUnknown w w') :
    SettledKept service w w' := by
  have hinv : ∀ {v}, Steps (withdrawalSystem service) FindsUnknown w v → LockInv v := by
    intro v hv
    refine (hw.steps hv).invariant lockInv_init ?_
    intro s a t hi hok hs
    exact (step_kept hi hok hs).1
  induction h with
  | refl => exact ⟨fun i r hr _ => ⟨r, hr, .refl r⟩, fun wid i hi => Or.inl hi⟩
  | @tail v u a hv hok hs ih =>
    obtain ⟨-, hkept⟩ := step_kept (hinv hv) hok hs
    refine ⟨fun i r hr hp => ?_, fun wid i hi => ?_⟩
    · obtain ⟨r', hr', hu⟩ := ih.record i r hr hp
      obtain ⟨r'', hr'', hu'⟩ := hkept.settled i r' hr' (hu.phase.trans hp)
      exact ⟨r'', hr'', hu.trans hu'⟩
    have hlast : Steps (withdrawalSystem service) always v u := .tail .refl trivial hs
    rcases ih.retained wid i hi with hv' | ⟨x, hx, hxv, hnone⟩
    · rcases hkept.retained wid i hv' with hu | hu
      · exact Or.inl hu
      · exact Or.inr ⟨u, hv.always.trans hlast, .refl, hu⟩
    · exact Or.inr ⟨x, hx, hxv.trans hlast, hnone⟩

end

/-! ## Two reconcilers -/

def plainService : Service where
  bridgeEpoch := "epoch-1"
  clock := pythonClock
  payloadDigest := fun text _ => text
  mintRef := fun _ purpose target =>
    (match purpose with | .operationRef => "o:" | .recoveryRef => "r:" | .recoveryAssetRef => "a:") ++
      target.identity.operationId ++ ":" ++ target.withdrawRequestId.getD "" ++ ":" ++ target.assetId.getD ""
  operationFingerprint := fun authorization identity wid => authorization.principalId ++ identity.operationId ++ wid

def operator : AuthorizationBinding := ⟨"operator", "tenant"⟩

def prompt : OperationIdentity := ⟨"prompt", "request-1", 7⟩

def promptJournal : Dict String JournalEntry := Dict.empty.set "request-1" ⟨"the prompt", "digest", none⟩

def promptWithdrawn (recovery : Option Harness.WithdrawalRecovery) : WithdrawalResult :=
  ⟨"request-1", .withdrawn, some .withdrawn, some "2026-08-01T10:00:02+00:00", none, recovery⟩

def reconcile : Action := .withdrawStatus operator prompt "withdraw-1" true "2026-08-01T10:00:01+00:00"

/-- The first response is lost, and a reconcile brings the withdrawal home. -/
def lostThenReconciled : List Action :=
  [.submits promptJournal .empty, .withdraw operator prompt "o:1" "withdraw-1" "2026-08-01T10:00:00+00:00",
    .timeline [⟨"request-1", .prompt, some .cockpit, .queued, 7⟩], .crossed (.maybeSent "reset") "2026-08-01T10:00:00+00:00",
    reconcile, .crossed (.answered (promptWithdrawn (some ⟨some "the prompt", []⟩))) "2026-08-01T10:00:02+00:00"]

def acknowledge : Action := .acknowledgeRecovery "r:request-1:withdraw-1:" .replaceCurrentDraft "2026-08-01T10:00:03+00:00"

theorem acknowledged_after_reconcile :
    ∃ w w', checkedRun (withdrawalSystem plainService) FindsUnknown World.init lostThenReconciled = some w ∧
      checkedRun (withdrawalSystem plainService) FindsUnknown w [acknowledge] = some w' ∧ SettledKept plainService w w' := by
  obtain ⟨w, hw, w', hw'⟩ : ∃ w, checkedRun (withdrawalSystem plainService) FindsUnknown World.init lostThenReconciled = some w ∧
      ∃ w', checkedRun (withdrawalSystem plainService) FindsUnknown w [acknowledge] = some w' := by
    refine ⟨_, rfl, Option.isSome_iff_exists.mp ?_⟩
    decide
  exact ⟨w, w', hw, hw', settled_never_overwritten plainService (steps_of_checkedRun hw) (steps_of_checkedRun hw')⟩

def settledWithWaiter : List Action :=
  [.submits promptJournal .empty, .withdraw operator prompt "o:1" "withdraw-1" "2026-08-01T10:00:00+00:00",
    .timeline [⟨"request-1", .prompt, some .cockpit, .queued, 7⟩], .crossed (.maybeSent "reset") "2026-08-01T10:00:00+00:00",
    reconcile, reconcile, .crossed (.answered (promptWithdrawn (some ⟨some "the prompt", []⟩))) "2026-08-01T10:00:02+00:00",
    acknowledge]

def secondReconcile : List Action :=
  [.acquire, .crossed (.answered (promptWithdrawn none)) "2026-08-01T10:00:04+00:00"]

def settledWorld : World := (runFrom (withdrawalSystem plainService) World.init settledWithWaiter).get (by decide)

def redrivenWorld : World := (runFrom (withdrawalSystem plainService) settledWorld secondReconcile).get (by decide)

theorem settledWorld_reachable : Reachable (withdrawalSystem plainService) always settledWorld :=
  reachable_of_runFrom (Option.some_get _).symm

theorem settledWorld_redriven : Steps (withdrawalSystem plainService) always settledWorld redrivenWorld :=
  steps_of_runFrom (fun _ _ _ => trivial) (Option.some_get _).symm

/-- The acknowledged recovery is unacknowledged again. -/
theorem acknowledged_redriven :
    ¬ ∀ w w' : World, Reachable (withdrawalSystem plainService) always w → Steps (withdrawalSystem plainService) always w w' →
      SettledKept plainService w w' := by
  intro hall
  have hkept := (hall settledWorld redrivenWorld settledWorld_reachable settledWorld_redriven).record
  obtain ⟨r, hr, hacknowledged⟩ : ∃ r, settledWorld.channel.records[0]? = some r ∧
      r.phase = .settled ∧ r.recoveryState = .acknowledged := ⟨_, rfl, rfl, rfl⟩
  obtain ⟨r', hr', hu⟩ := hkept 0 r hr hacknowledged.1
  obtain ⟨r'', hr'', hun⟩ : ∃ r'', redrivenWorld.channel.records[0]? = some r'' ∧
      r''.recoveryState = .recoveryUnacknowledged := ⟨_, rfl, rfl⟩
  rw [hr', Option.some.injEq] at hr''
  have hstate := hu.recoveryState
  rw [hr'', hun, hacknowledged.2] at hstate
  revert hstate
  decide

end AgentsRemember.Control
