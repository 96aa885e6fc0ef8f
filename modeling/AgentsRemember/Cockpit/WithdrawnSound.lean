import AgentsRemember.Cockpit.TextSound
import AgentsRemember.Cockpit.DriverSound

/-!
# Withdrawn text is restored once

The withdrawal's own answers and the poller's may bring the same news. The slot
and the mark of the record tell that the text was put back; a dismissal, and a
record that the history dropped, do not tell it to an answer that is still on
its way.
-/

namespace AgentsRemember.Cockpit

open Lib CockpitEvent
open Harness (SubmissionLifecycleState)

def FlowSlot (slot : Option WithdrawalState) (t : PendingWithdrawal) : Prop :=
  slot = none ∨ slot = some (.pending t) ∨ InRecovery slot t.requestId

theorem FlowSlot.pending {slot : Option WithdrawalState} {t p : PendingWithdrawal} (h : FlowSlot slot t)
    (hp : slot = some (.pending p)) : t = p := by
  subst hp
  rcases h with h | h | h
  · cases h
  · cases h
    rfl
  · exact absurd h not_inRecovery_pending

namespace PerSessionCockpit

variable {s s' : PerSessionCockpit} {n r : SubmitRecord} {id : RequestId} {text : String} {now : Nat}

structure Preserved (s : PerSessionCockpit) : Prop where
  placed : Placed s.log s.withdrawal
  texts : s.Texts

structure Grows (s s' : PerSessionCockpit) : Prop where
  stored : ∀ r ∈ s.stored, r ∈ s'.stored
  log : ∀ e ∈ s.log, e ∈ s'.log
  flight : s'.withdrawalInFlight = s.withdrawalInFlight

theorem Grows.refl (s : PerSessionCockpit) : Grows s s := ⟨fun _ h => h, fun _ h => h, rfl⟩

variable {u : PerSessionCockpit} {o : Option SubmitRecord} {p : PendingWithdrawal}
  {options : LifecycleObservationOptions}

theorem Grows.trans (h : Grows s s') (h' : Grows s' u) : Grows s u :=
  ⟨fun r hr => h'.1 r (h.1 r hr), fun e he => h'.2 e (h.2 e he), h'.3.trans h.3⟩

theorem SameTexts.grows (h : SameTexts s s') : Grows s s' :=
  ⟨fun _ hr => h.stored ▸ hr, fun _ he => h.log ▸ he, h.flight⟩

theorem grows_note (e : CockpitEvent) : Grows s (s.note e) := ⟨fun _ h => h, fun _ h => List.mem_append_left _ h, rfl⟩

theorem grows_upsert (n : SubmitRecord) : Grows s (s.upsertSubmitRecord n) :=
  ⟨fun _ h => List.mem_append_left _ h, fun _ h => h, rfl⟩

theorem grows_project (o : Option SubmitRecord) : Grows s (s.applyProjectedRecord o) := by
  cases o with
  | none => exact .refl s
  | some n => exact grows_upsert n

theorem grows_setWithdrawal (w : Option WithdrawalState) : Grows s (s.setWithdrawal w) := ⟨fun _ h => h, fun _ h => h, rfl⟩

theorem Faithful.mono (h : s.Faithful n) (hg : Grows s s') : s'.Faithful n := by
  refine ⟨h.said.mono hg.stored, fun hm => ?_⟩
  obtain ⟨e, he, hres⟩ := h.marked hm
  exact ⟨e, hg.log e he, hres⟩

theorem Preserved.same (h : s.Preserved) (hs : SameTexts s s') : s'.Preserved := by
  refine ⟨?_, h.texts.same hs⟩
  rw [hs.log, hs.withdrawal]
  exact h.placed

theorem Preserved.inFlight (h : s.Preserved) (b : Bool) : { s with withdrawalInFlight := b }.Preserved :=
  ⟨h.placed, ⟨h.texts.one, h.texts.issued, h.texts.marked, h.texts.history, h.texts.queue, h.texts.pending, h.texts.recovery,
    h.texts.brought⟩⟩

@[simp] theorem withdrawal_project (o : Option SubmitRecord) : (s.applyProjectedRecord o).withdrawal = s.withdrawal := by
  cases o <;> rfl

@[simp] theorem log_project (o : Option SubmitRecord) : (s.applyProjectedRecord o).log = s.log := by
  cases o <;> rfl

@[simp] theorem flight_project (o : Option SubmitRecord) :
    (s.applyProjectedRecord o).withdrawalInFlight = s.withdrawalInFlight := by
  cases o <;> rfl

theorem Preserved.project {f : SubmitRecord → SubmitRecord} (h : s.Preserved)
    (ho : ∀ r, o = some r → r ∈ s.stored ∧ r.requestId = id) (hid : ∀ r, (f r).requestId = r.requestId)
    (htext : ∀ r, (f r).text = r.text) (hmark : ∀ r, (f r).restoredAt.isSome = true → r.restoredAt.isSome = true) :
    (s.applyProjectedRecord (o.map f)).Preserved := by
  refine ⟨?_, h.texts.project ho hid htext fun r hr => .inl (hmark r hr)⟩
  rw [log_project, withdrawal_project]
  exact h.placed

theorem Preserved.upsert (h : s.Preserved) (hn : s.Faithful n) : (s.upsertSubmitRecord n).Preserved :=
  ⟨h.placed, h.texts.upsert hn⟩

theorem not_inRecovery_of_pending (h : s.storedPending = some p) : s.withdrawal = some (.pending p) := by
  unfold storedPending at h
  split at h
  · cases h
    assumption
  · cases h

/-! ## A withdrawn answer -/

structure Ready (s : PerSessionCockpit) (id : RequestId) (p : PendingWithdrawal) : Prop where
  slot : ∀ i, ¬ InRecovery s.withdrawal i
  said : Said s.stored id p.text
  requested : .requested id p.draftRevision ∈ s.log
  unsettled : ((s.submissionRecord id).bind (·.restoredAt)).isSome = true ∨ Unsettled s.log id

theorem ready_of_pending (h : s.Preserved) (hp : s.withdrawal = some (.pending p)) : s.Ready p.requestId p := by
  obtain ⟨hrequested, hunsettled⟩ := h.placed.slotted.pending p hp
  refine ⟨fun i => ?_, h.texts.pending p hp, hrequested, .inr hunsettled⟩
  rw [hp]
  exact not_inRecovery_pending

theorem preserved_restoreOrRecover {log : List CockpitEvent} {slot : Option WithdrawalState} (htexts : s.Texts)
    (hlog : s.log = log ++ [.withdrawn id true]) (h : Placed log slot) (hslot : ∀ i, ¬ InRecovery slot i)
    (hsaid : Said s.stored id p.text) (hrequested : .requested id p.draftRevision ∈ log) (hunsettled : Unsettled log id)
    (ho : ∀ r, o = some r → r ∈ s.stored ∧ r.requestId = id) (detail : Option String) :
    (s.restoreOrRecoverWithdrawal id p (o.map (withdrawnRecord detail now)) now).Preserved := by
  unfold restoreOrRecoverWithdrawal replaceComposerDraftIfRevision
  by_cases hrevision : s.composer.draftRevision = p.draftRevision
  · rw [if_neg (not_not.mpr hrevision)]
    dsimp only [restoreOutcome]
    have hreplaced : ((s.setComposerDraft p.text).note (.replaced id p.text s.composer.draftRevision)).Texts := by
      refine (htexts.same (sameTexts_setComposerDraft _)).note (fun i t hb => ?_) fun _ _ => nofun
      obtain ⟨rfl, rfl⟩ := hb
      exact hsaid
    rw [Option.map_map]
    refine ⟨?_, (hreplaced.project (f := restoredRecord now ∘ withdrawnRecord detail now) ho (fun _ => rfl) (fun _ => rfl)
      fun r _ => .inr ?_).unset⟩
    · have hplaced := h.replace p.text hslot hunsettled (hrevision ▸ hrequested)
      simpa only [setWithdrawal, log_project, note, setComposerDraft, hlog] using hplaced
    · exact ⟨_, List.mem_append_right _ (List.mem_singleton_self _), rfl⟩
  · rw [if_pos hrevision]
    have hproject : (s.applyProjectedRecord (o.map (withdrawnRecord detail now))).Texts :=
      htexts.project ho (fun _ => rfl) (fun _ => rfl) fun r hr => .inl hr
    have hsaid' := hsaid.mono (grows_project (o.map (withdrawnRecord detail now))).stored
    refine ⟨?_, Texts.note (hproject.setWithdrawal (fun _ hw => by cases hw) fun i t m hw => ?_) (fun i t hb => ?_) fun _ _ => nofun⟩
    · have hplaced := h.hold p.text now hslot hunsettled
      simpa only [setWithdrawal, note, log_project, hlog] using hplaced
    · cases hw
      exact hsaid'
    · obtain ⟨rfl, rfl⟩ := hb
      exact hsaid'

theorem preserved_resolve (h : s.Preserved) (detail : Option String) {issued : Option PendingWithdrawal}
    (hready : ∀ p, s.pendingWithdrawalSelection id issued = some p → p.requestId = id → s.Ready id p) :
    (s.resolveAuthoritativeWithdrawal id detail now issued).Preserved := by
  have hnoted : ∀ b, ((s.dequeueSubmit id).note (.withdrawn id b)).Texts := by
    refine fun b => (h.texts.same sameTexts_dequeueSubmit).note (fun _ _ hb => hb.elim) fun q hq heq => ?_
    have hne := of_decide_eq_true (List.mem_filter.mp hq).2
    cases heq
    exact hne rfl
  have hrecord : ∀ r, s.submissionRecord id = some r → r ∈ s.stored ∧ r.requestId = id := fun r => h.texts.history id r
  have hproject : ∀ b, (((s.dequeueSubmit id).note (.withdrawn id b)).applyProjectedRecord
      ((s.submissionRecord id).map (withdrawnRecord detail now))).Texts :=
    fun b => (hnoted b).project hrecord (fun _ => rfl) (fun _ => rfl) fun r hr => .inl hr
  unfold resolveAuthoritativeWithdrawal
  dsimp only
  split
  · rename_i hnone
    rw [hnone]
    refine ⟨?_, hproject _⟩
    rw [log_project, withdrawal_project]
    exact h.placed.unmatched
  rename_i p hp
  rw [hp]
  obtain ⟨hselected, hid⟩ := Option.filter_eq_some_iff.mp hp
  have ready := hready p hselected (of_decide_eq_true hid)
  split
  · rename_i hrestored
    refine ⟨?_, (hproject _).unset⟩
    have hsettled : ¬ Unsettled s.log id := fun hu => by
      obtain ⟨r, hr, hmark⟩ := Option.bind_eq_some_iff.mp (Option.eq_some_of_isSome hrestored)
      obtain ⟨hstored, hrid⟩ := hrecord r hr
      obtain ⟨e, he, hres⟩ := h.texts.marked r hstored (by rw [hmark]; rfl)
      exact hu e he (hrid ▸ hres.settles)
    rw [setWithdrawal, log_project]
    exact h.placed.again ready.slot hsettled
  · rename_i hrestored
    exact preserved_restoreOrRecover (hnoted _) rfl h.placed ready.slot ready.said ready.requested
      (ready.unsettled.resolve_left hrestored) hrecord detail

theorem grows_restoreOrRecover (p : PendingWithdrawal) (o : Option SubmitRecord) :
    Grows s (s.restoreOrRecoverWithdrawal id p o now) := by
  unfold restoreOrRecoverWithdrawal replaceComposerDraftIfRevision
  by_cases hrevision : s.composer.draftRevision = p.draftRevision
  · rw [if_neg (not_not.mpr hrevision)]
    have hreplaced := (sameTexts_setComposerDraft (s := s) p.text).grows.trans
      (grows_note (.replaced id p.text s.composer.draftRevision))
    exact hreplaced.trans ((grows_project _).trans (grows_setWithdrawal _))
  · rw [if_pos hrevision]
    exact (grows_project _).trans ((grows_setWithdrawal _).trans (grows_note _))

theorem grows_resolve (detail : Option String) (issued : Option PendingWithdrawal) :
    Grows s (s.resolveAuthoritativeWithdrawal id detail now issued) := by
  have hnoted : ∀ b, Grows s ((s.dequeueSubmit id).note (.withdrawn id b)) :=
    fun b => sameTexts_dequeueSubmit.grows.trans (grows_note _)
  have hproject : ∀ b o, Grows s (((s.dequeueSubmit id).note (.withdrawn id b)).applyProjectedRecord o) :=
    fun b o => (hnoted b).trans (grows_project o)
  unfold resolveAuthoritativeWithdrawal
  dsimp only
  split
  · exact hproject _ _
  split
  · exact (hproject _ _).trans (grows_setWithdrawal _)
  · exact (hnoted _).trans (grows_restoreOrRecover _ _)

theorem withdrawal_resolve (s : PerSessionCockpit) (id : RequestId) (now : Nat) (detail : Option String) (issued : Option PendingWithdrawal) :
    (s.resolveAuthoritativeWithdrawal id detail now issued).withdrawal = s.withdrawal ∨
      (s.resolveAuthoritativeWithdrawal id detail now issued).withdrawal = none ∨
      ∃ p, s.pendingWithdrawalSelection id issued = some p ∧ p.requestId = id ∧
        InRecovery (s.resolveAuthoritativeWithdrawal id detail now issued).withdrawal id := by
  unfold resolveAuthoritativeWithdrawal
  dsimp only
  split
  · exact .inl (withdrawal_project _)
  rename_i p hp
  obtain ⟨hselected, hid⟩ := Option.filter_eq_some_iff.mp hp
  split
  · exact .inr (.inl rfl)
  unfold restoreOrRecoverWithdrawal
  split
  · exact .inr (.inl rfl)
  · exact .inr (.inr ⟨p, hselected, of_decide_eq_true hid, inRecovery_some.mpr rfl⟩)

/-! ## Any answer -/

theorem preserved_clearSettled (h : s.Preserved) (owner : Bool) : (s.clearSettledWithdrawal id owner).Preserved := by
  unfold clearSettledWithdrawal
  split
  · exact h
  rename_i p hp
  split
  · exact h
  obtain ⟨hp, -⟩ := Option.filter_eq_some_iff.mp hp
  refine ⟨h.placed.clear fun i => ?_, h.texts.unset⟩
  rw [not_inRecovery_of_pending hp]
  exact not_inRecovery_pending

theorem grows_clearSettled (owner : Bool) : Grows s (s.clearSettledWithdrawal id owner) := by
  unfold clearSettledWithdrawal
  split
  · exact .refl s
  split
  · exact .refl s
  · exact grows_setWithdrawal _

theorem preserved_dequeueUnlessQueued (h : s.Preserved) (o : SubmissionLifecycleObservation)
    (options : LifecycleObservationOptions) : (s.dequeueUnlessQueued id o options).Preserved := by
  unfold dequeueUnlessQueued
  split
  · exact h
  · exact preserved_clearSettled (h.same sameTexts_dequeueSubmit) _

theorem grows_dequeueUnlessQueued (o : SubmissionLifecycleObservation) (options : LifecycleObservationOptions) :
    Grows s (s.dequeueUnlessQueued id o options) := by
  unfold dequeueUnlessQueued
  split
  · exact .refl s
  · exact sameTexts_dequeueSubmit.grows.trans (grows_clearSettled _)

theorem projectObservation_same (r : SubmitRecord) (o : SubmissionLifecycleObservation) (detail : Option String) (now : Nat) :
    (projectObservation r o detail now).requestId = r.requestId ∧ (projectObservation r o detail now).text = r.text ∧
      (projectObservation r o detail now).restoredAt = r.restoredAt := by
  cases o <;> exact ⟨rfl, rfl, rfl⟩

theorem preserved_applySettled (h : s.Preserved) {o : SubmissionLifecycleObservation} (detail : Option String)
    (hready : o = .server .withdrawn → ∀ p, s.pendingWithdrawalSelection id options.issuedWithdrawal = some p →
      p.requestId = id → s.Ready id p) : (s.applySettled id o detail now options).Preserved := by
  unfold applySettled
  split
  · exact preserved_resolve h detail (hready rfl)
  refine preserved_dequeueUnlessQueued (h.project (f := fun r => projectObservation r o detail now)
    (fun r => h.texts.history id r) (fun r => (projectObservation_same r _ _ _).1)
    (fun r => (projectObservation_same r _ _ _).2.1) fun r hr => ?_) _ _
  rwa [(projectObservation_same r _ _ _).2.2] at hr

theorem grows_applySettled (o : SubmissionLifecycleObservation) (detail : Option String)
    (options : LifecycleObservationOptions) : Grows s (s.applySettled id o detail now options) := by
  unfold applySettled
  split
  · exact grows_resolve _ _
  · exact (grows_project _).trans (grows_dequeueUnlessQueued _ _)

theorem preserved_apply (h : s.Preserved) {incoming : SubmissionLifecycleObservation} (detail : Option String) {v : Int}
    (hready : incoming = .server .withdrawn → s.settleLifecycleObservation id incoming v ≠ .preserve →
      ∀ p, s.pendingWithdrawalSelection id options.issuedWithdrawal = some p → p.requestId = id → s.Ready id p) :
    (s.applyLifecycleObservation id incoming detail now v options).Preserved := by
  unfold applyLifecycleObservation
  split
  · split
    · exact preserved_clearSettled h _
    · exact h
  · rename_i o hsettle
    refine preserved_applySettled h detail fun ho => hready ?_ (by rw [hsettle]; nofun)
    unfold settleLifecycleObservation settleSubmissionObservation at hsettle
    subst ho
    split at hsettle
    · exact SubmissionObservationSettlement.incoming.inj hsettle
    dsimp only at hsettle
    split at hsettle
    · cases hsettle
    split at hsettle
    · exact SubmissionObservationSettlement.incoming.inj hsettle
    split at hsettle
    · cases hsettle
    · exact SubmissionObservationSettlement.incoming.inj hsettle
  · exact preserved_applySettled h _ nofun

theorem grows_apply (incoming : SubmissionLifecycleObservation) (detail : Option String) (v : Int)
    (options : LifecycleObservationOptions) : Grows s (s.applyLifecycleObservation id incoming detail now v options) := by
  unfold applyLifecycleObservation
  split
  · split
    · exact grows_clearSettled _
    · exact .refl s
  · exact grows_applySettled _ _ _
  · exact grows_applySettled _ _ _

/-! ## The poller -/

structure Aside (s s' : PerSessionCockpit) : Prop where
  preserved : s'.Preserved
  grows : Grows s s'
  slot : s.withdrawalInFlight = true → ∀ t, FlowSlot s.withdrawal t → FlowSlot s'.withdrawal t

theorem Aside.refl (h : s.Preserved) : Aside s s := ⟨h, .refl s, fun _ _ h => h⟩

theorem Aside.trans (h : Aside s s') (h' : Aside s' u) : Aside s u :=
  ⟨h'.preserved, h.grows.trans h'.grows, fun hf t ht => h'.slot (h.grows.flight.trans hf) t (h.slot hf t ht)⟩

theorem ready_background (h : s.Preserved) (hp : s.pendingWithdrawalSelection id none = some p) (hid : p.requestId = id)
    : s.Ready id p := hid ▸ ready_of_pending h (not_inRecovery_of_pending hp)

theorem withdrawal_dequeueUnlessQueued (hflight : s.withdrawalInFlight = true) (o : SubmissionLifecycleObservation) :
    (s.dequeueUnlessQueued id o background).withdrawal = s.withdrawal := by
  unfold dequeueUnlessQueued
  split
  · rfl
  unfold clearSettledWithdrawal
  split
  · rfl
  · rw [if_pos ⟨rfl, hflight⟩]
    rfl

theorem slot_apply (incoming : SubmissionLifecycleObservation) (detail : Option String) (v : Int)
    (hflight : s.withdrawalInFlight = true) {t : PendingWithdrawal} (ht : FlowSlot s.withdrawal t) :
    FlowSlot (s.applyLifecycleObservation id incoming detail now v background).withdrawal t := by
  have hsettled : ∀ o detail, FlowSlot (s.applySettled id o detail now background).withdrawal t := by
    intro o detail
    unfold applySettled
    split
    · rcases withdrawal_resolve s id now detail none with hw | hw | ⟨p, hp, hid, hr⟩
      · exact hw ▸ ht
      · exact .inl hw
      · rw [ht.pending (not_inRecovery_of_pending hp)]
        exact .inr (.inr (hid ▸ hr))
    dsimp only
    rw [withdrawal_dequeueUnlessQueued (by rwa [flight_project]), withdrawal_project]
    exact ht
  unfold applyLifecycleObservation
  split
  · exact ht
  · exact hsettled _ _
  · exact hsettled _ _

theorem aside_apply (h : s.Preserved) (incoming : SubmissionLifecycleObservation) (detail : Option String) (v : Int) :
    Aside s (s.applyLifecycleObservation id incoming detail now v background) :=
  ⟨preserved_apply h detail fun _ _ _ hp hid => ready_background h hp hid, grows_apply _ _ _ _,
    fun hf _ ht => slot_apply incoming detail v hf ht⟩

theorem aside_pollAnswered (h : s.Preserved) (p : PollWait) (answer : Except StatusError StatusBatch) :
    Aside s (s.pollAnswered p answer).1 := by
  have hfold : ∀ {f : PerSessionCockpit → PollTarget → PerSessionCockpit}, (∀ s t, Preserved s → Aside s (f s t)) →
      ∀ (page : List PollTarget) {s : PerSessionCockpit}, s.Preserved → Aside s (page.foldl f s) := by
    intro f hf page
    induction page with
    | nil => exact fun h => .refl h
    | cons t page ih => exact fun h => (hf _ t h).trans (ih (hf _ t h).preserved)
  unfold pollAnswered
  split
  · refine hfold (fun s t hs => ?_) _ h
    unfold applyLookup
    split <;> exact aside_apply hs _ _ _
  · exact hfold (fun s t hs => aside_apply hs _ _ _) _ h
  · exact .refl h

theorem aside_upsert (h : s.Preserved) (hn : s.Faithful n) : Aside s (s.upsertSubmitRecord n) :=
  ⟨h.upsert hn, grows_upsert n, fun _ _ ht => ht⟩

theorem aside_same (h : s.Preserved) (hs : SameTexts s s') : Aside s s' :=
  ⟨h.same hs, hs.grows, fun _ _ ht => hs.withdrawal ▸ ht⟩

theorem aside_appendWatched (records : List SubmitRecord) : ∀ {targets : List PollTarget} {s : PerSessionCockpit},
    s.Preserved → (∀ r ∈ records, s.Faithful r) → Aside s (records.foldl (appendWatchedTarget now) (targets, s)).2 := by
  induction records with
  | nil => exact fun h _ => .refl h
  | cons r records ih =>
    intro targets s h hall
    have hrest := fun r' hr' => hall r' (List.mem_cons_of_mem _ hr')
    rw [List.foldl_cons]
    unfold appendWatchedTarget
    dsimp only
    split
    · exact ih h hrest
    split
    · exact ih h hrest
    · have hended : s.Faithful (enterEndgame r now) := ⟨(hall r List.mem_cons_self).said, (hall r List.mem_cons_self).marked⟩
      have hstep := aside_upsert h hended
      exact hstep.trans (ih hstep.preserved fun r' hr' => (hrest r' hr').mono hstep.grows)
    · exact ih h hrest

theorem faithful_of_stored (h : s.Preserved) (hr : r ∈ s.stored) : s.Faithful r :=
  ⟨⟨r, hr, rfl, rfl⟩, h.texts.marked r hr⟩

theorem aside_startPoll (h : s.Preserved) : Aside s (s.startPoll now).1 := by
  refine aside_appendWatched s.submitHistory.values h fun r hr => ?_
  obtain ⟨e, he, rfl⟩ := List.mem_map.mp hr
  exact faithful_of_stored h (h.texts.history e.1 e.2 (Dict.get?_eq_some.mpr he)).1

theorem aside_restoreWithdrawnRecovery (h : s.Preserved) (revision : Nat) :
    Aside s (s.restoreWithdrawnRecovery id revision now) := by
  unfold restoreWithdrawnRecovery
  split
  · rename_i held text since hslot
    split
    · exact .refl h
    rename_i hid
    obtain rfl := not_not.mp hid
    unfold replaceComposerDraftIfRevision
    by_cases hrevision : s.composer.draftRevision = revision
    · rw [if_neg (not_not.mpr hrevision)]
      dsimp only
      have hdrafted := sameTexts_setComposerDraft (s := s) text
      have htexts : ((s.setComposerDraft text).note (.restored held text)).Texts := by
        refine (h.texts.same hdrafted).note (fun i t hb => ?_) fun _ _ => nofun
        obtain ⟨rfl, rfl⟩ := hb
        exact h.texts.recovery _ _ _ hslot
      refine ⟨⟨?_, ?_⟩, hdrafted.grows.trans ((grows_note _).trans ((grows_project _).trans (grows_setWithdrawal _))),
        fun _ t _ => .inl rfl⟩
      · rw [setWithdrawal, log_project]
        have hplaced : Placed s.log (some (.recovery held text since)) := hslot ▸ h.placed
        exact hplaced.choose (fun i => eq_comm) (fun i t hb => hb.1.symm) nofun nofun
      refine (htexts.project (f := fun r => { r with restoredAt := some now, updatedAt := now })
        (fun r => h.texts.history held r) (fun _ => rfl) (fun _ => rfl) fun r _ => .inr ?_).unset
      exact ⟨_, List.mem_append_right _ (List.mem_singleton_self _), rfl⟩
    · rw [if_pos hrevision]
      exact .refl h
  · exact .refl h

theorem aside_dismissWithdrawnRecovery (h : s.Preserved) (revision : Nat) :
    Aside s (s.dismissWithdrawnRecovery id revision now) := by
  unfold dismissWithdrawnRecovery dismissWithdrawalRecoveryIfMatches
  split
  · exact .refl h
  rename_i dismissed hdismissed
  split at hdismissed
  · rename_i held text since hslot
    split at hdismissed
    · cases hdismissed
    rename_i hmatch
    cases hdismissed
    obtain rfl : held = id := not_not.mp fun hne => hmatch (.inr hne)
    have htexts : ((s.setWithdrawal none).note (.dismissed held)).Texts :=
      h.texts.unset.note (fun _ _ hb => hb.elim) fun _ _ => nofun
    refine ⟨⟨?_, ?_⟩, (grows_setWithdrawal _).trans ((grows_note _).trans (grows_project _)), fun _ t _ => .inl ?_⟩
    · rw [log_project, withdrawal_project]
      have hplaced : Placed s.log (some (.recovery held text since)) := hslot ▸ h.placed
      exact hplaced.choose (fun i => eq_comm) (fun i t hb => hb.elim) nofun nofun
    · exact htexts.project (f := fun r =>
        { r with
          detail := some "withdrawn before dispatch · current draft kept; withdrawn text dismissed"
          recoveryDismissedAt := some now
          updatedAt := now }) (fun r => h.texts.history held r) (fun _ => rfl) (fun _ => rfl) fun r hr => .inl hr
    · rw [withdrawal_project]
      rfl
  · cases hdismissed

/-! ## A driver's turn -/

end PerSessionCockpit

def DriverTurn.Queues (turn : DriverTurn) : Prop := ∃ n, turn.next = .final n ∧ n.phase = .queued

def DriverReply.saysQueued : DriverReply → Bool
  | .receipt (.ok answer) => decide (answer.acceptance = .queued)
  | .status (.ok (some submission)) => decide (submission.state = .queued)
  | .reconciliation (.ok result) => decide (result.submissionState = some .queued)
  | _ => false

section
variable {r : SubmitRecord} {bounds : ReconcileBounds} {now : Nat}

theorem not_queues_final (h : r.phase ≠ .queued) : ¬ (DriverTurn.final r).Queues := by
  rintro ⟨n, ⟨⟩, hn⟩
  exact h hn

theorem not_queues_wait (w : DriverWait) : ¬ (DriverTurn.wait w).Queues := by
  rintro ⟨n, hn, -⟩
  cases hn

variable {turn : DriverTurn} {deadlineAt retries : Nat}

theorem queues_update : (DriverTurn.update r turn).Queues ↔ turn.Queues := Iff.rfl

theorem reconcileLoop_not_queues : ¬ (reconcileLoop r bounds now).Queues := by
  unfold reconcileLoop
  split
  · exact queues_update.not.mpr (not_queues_final nofun)
  · exact not_queues_wait _

theorem reconcileWindow_not_queues : ¬ (reconcileWindow r bounds now).Queues :=
  queues_update.not.mpr reconcileLoop_not_queues

theorem reconcileCatchOutcome_phase (error : SubmitError) (h : (reconcileCatchOutcome error r deadlineAt now).2 = true)
    : (reconcileCatchOutcome error r deadlineAt now).1.phase ≠ .queued := by
  by_cases hopen : deadlineAt ≤ now
  · cases error <;> simp only [reconcileCatchOutcome, if_pos hopen] <;> exact nofun
  cases error with
  | epochMismatch detail => exact nofun
  | deadline stage => exact nofun
  | preDispatch detail => simp [reconcileCatchOutcome, hopen] at h
  | ambiguous detail => simp [reconcileCatchOutcome, hopen] at h
  | route failure =>
    by_cases hstatus : failure.httpStatus = some 503
    · simp [reconcileCatchOutcome, hopen, hstatus] at h
    · simp [reconcileCatchOutcome, hopen, hstatus, failRoute]

theorem reconcileCatch_not_queues (error : SubmitError) : ¬ (reconcileCatch error r bounds now).Queues := by
  refine queues_update.not.mpr ?_
  split
  · rename_i h
    exact not_queues_final (reconcileCatchOutcome_phase error h)
  · exact reconcileLoop_not_queues

theorem attemptReconcile_not_queues : ¬ (attemptReconcile r bounds now).Queues := by
  unfold attemptReconcile
  split
  · exact reconcileCatch_not_queues _
  · exact not_queues_wait _

theorem submitted_queues (h : (submitted r bounds now).Queues) : r.phase = .queued := by
  unfold submitted at h
  rw [queues_update] at h
  split at h
  · exact absurd h reconcileWindow_not_queues
  · exact not_not.mp fun hne => not_queues_final hne h

theorem submitCatchOutcome_phase {error : SubmitError} {n : SubmitRecord}
    (h : submitCatchOutcome error r retries now = some n) : n.phase ≠ .queued := by
  unfold submitCatchOutcome at h
  split at h
  · cases h
    exact nofun
  · split at h <;> cases h
    exact nofun
  · cases h
    exact nofun
  · cases h
    exact nofun

theorem boundedAttempt_ok {α : Type} {stage : String} {answer : Except SubmitError α} {a : α}
    (h : boundedAttempt stage deadlineAt now answer = .ok a) : answer = .ok a := by
  cases answer with
  | error e => cases h
  | ok a' =>
    by_cases hover : deadlineAt ≤ now
    · simp [boundedAttempt, hover] at h
    · simpa [boundedAttempt, hover] using h

theorem submitAnswered_queues {answer : Except SubmitError SubmissionReceiptWire}
    (h : (submitAnswered r bounds retries answer now).Queues) : (DriverReply.receipt answer).saysQueued = true := by
  unfold submitAnswered at h
  split at h
  · rename_i receipt hbounded
    rw [boundedAttempt_ok hbounded]
    have hphase := submitted_queues h
    refine decide_eq_true ?_
    unfold reduceReceipt at hphase
    split at hphase
    · cases hphase
    · assumption
    all_goals cases hphase
  split at h
  · rename_i hcaught
    exact absurd (submitted_queues h) (submitCatchOutcome_phase hcaught)
  unfold retrySubmit at h
  split at h
  · split at h
    · rename_i hcaught
      exact absurd (submitted_queues h) (submitCatchOutcome_phase hcaught)
    · rename_i hcaught
      cases hcaught
  · exact absurd h (not_queues_wait _)

theorem lifecyclePhase_queued {state : SubmissionLifecycleState} (h : lifecyclePhase state = .queued) : state = .queued := by
  cases state <;> first | rfl | cases h

theorem applyLifecycleReconcile_queues {answer : Except SubmitError (Option SubmissionStatusWire)}
    (h : (applyLifecycleReconcile r bounds answer now).Queues) : (DriverReply.status answer).saysQueued = true := by
  unfold applyLifecycleReconcile at h
  split at h
  · exact absurd h (reconcileCatch_not_queues _)
  · exact absurd h attemptReconcile_not_queues
  rename_i submission hbounded
  rw [boundedAttempt_ok hbounded]
  refine decide_eq_true (lifecyclePhase_queued ?_)
  dsimp only at h
  rw [queues_update] at h
  split at h
  · exact not_not.mp fun hne => not_queues_final hne h
  · exact absurd h attemptReconcile_not_queues

theorem reconciled_queues {answer : Except SubmitError ReconciliationResultWire}
    (h : (reconciled r bounds answer now).Queues) : (DriverReply.reconciliation answer).saysQueued = true := by
  unfold reconciled at h
  split at h
  · exact absurd h (reconcileCatch_not_queues _)
  rename_i result hbounded
  rw [boundedAttempt_ok hbounded]
  refine decide_eq_true ?_
  dsimp only at h
  rw [queues_update] at h
  split at h
  · have hphase : (reduceReconciliation r result now).phase = .queued := not_not.mp fun hne => not_queues_final hne h
    unfold reduceReconciliation at hphase
    split at hphase
    · rename_i state hstate
      obtain ⟨hstate, -⟩ := Option.filter_eq_some_iff.mp hstate
      rw [hstate, lifecyclePhase_queued hphase]
    · split at hphase <;> cases hphase
  · exact absurd h reconcileLoop_not_queues

theorem resume_queues {lifecycle : Bool} {w : DriverWait} {reply : DriverReply}
    (hturn : w.resume lifecycle now reply = some turn) (h : turn.Queues) : reply.saysQueued = true := by
  unfold DriverWait.resume at hturn
  split at hturn <;> cases hturn
  · exact submitAnswered_queues h
  · unfold wake at h
    split at h
    · exact absurd h (queues_update.not.mpr (not_queues_final nofun))
    dsimp only at h
    rw [queues_update] at h
    split at h
    · exact absurd h (not_queues_wait _)
    · exact absurd h attemptReconcile_not_queues
  · exact applyLifecycleReconcile_queues h
  · exact reconciled_queues h

end

namespace PerSessionCockpit

variable {s s' : PerSessionCockpit} {n r : SubmitRecord} {id : RequestId} {text : String} {now : Nat}

theorem Faithful.of_same (h : s.Faithful r) (hn : Same r n) : s.Faithful n := by
  refine ⟨?_, fun hm => ?_⟩
  · rw [hn.id, hn.text]
    exact h.said
  · rw [hn.id]
    exact h.marked (hn.restored ▸ hm)

variable {turn : DriverTurn} {t : PendingWithdrawal} {v : Int}

theorem aside_upsertAll (hturn : turn.About r) : ∀ {s : PerSessionCockpit}, s.Preserved →
    s.Faithful r → Aside s (s.upsertAll turn.writes) := by
  induction hturn with
  | wait hw => exact fun h _ => .refl h
  | final hn => exact fun h _ => .refl h
  | update hn hrest ih =>
    intro s h hr
    have hstep := aside_upsert h (hr.of_same hn)
    exact hstep.trans (ih hstep.preserved (hr.mono hstep.grows))

theorem aside_settleStored (h : s.Preserved) (hn : s.Faithful n)
    (hqueue : n.source = .composer → n.phase = .queued → .withdrawn n.requestId true ∉ s.log) :
    Aside s (s.settleStoredSubmission n) := by
  have hqueued : Aside s (s.queueComposerSubmission n) := by
    unfold queueComposerSubmission
    split
    · exact .refl h
    rename_i hnot
    split
    · exact .refl h
    have hsource : n.source = .composer := not_not.mp fun hne => hnot (.inl hne)
    have hphase : n.phase = .queued := not_not.mp fun hne => hnot (.inr hne)
    exact ⟨⟨h.placed, h.texts.enqueue hn.said (hqueue hsource hphase)⟩, ⟨fun _ h => h, fun _ h => h, rfl⟩, fun _ _ ht => ht⟩
  refine hqueued.trans ?_
  unfold settleStoredSubmission maybeClearDraft
  split
  · exact aside_same hqueued.preserved (sameTexts_clearComposerDraft _)
  · exact .refl hqueued.preserved

theorem about_final (h : turn.About r) : turn.next = .final n → Same r n := by
  induction h with
  | wait hw => exact nofun
  | final hn =>
    rintro ⟨⟩
    exact hn
  | update hn hrest ih => exact ih

theorem about_wait {w : DriverWait} (h : turn.About r) : turn.next = .wait w → Same r w.record := by
  induction h with
  | wait hw =>
    rintro ⟨⟩
    exact hw
  | final hn => exact nofun
  | update hn hrest ih => exact ih

theorem aside_drive (h : s.Preserved) (hr : s.Faithful r) (hturn : turn.About r)
    (hqueue : r.source = .composer → turn.Queues → .withdrawn r.requestId true ∉ s.log) : Aside s (s.drive turn) := by
  have hwrites := aside_upsertAll hturn h hr
  have hlog : ∀ (records : List SubmitRecord) (s : PerSessionCockpit), (s.upsertAll records).log = s.log := by
    intro records
    induction records with
    | nil => exact fun _ => rfl
    | cons r records ih => exact fun s => ih _
  unfold drive
  split
  · exact hwrites
  rename_i n hnext
  have hn := about_final hturn hnext
  refine hwrites.trans (aside_settleStored hwrites.preserved ((hr.mono hwrites.grows).of_same hn) fun hs hphase => ?_)
  rw [hlog, hn.id]
  exact hqueue (hn.source ▸ hs) ⟨n, hnext, hphase⟩

/-! ## The withdrawal's own answers -/

structure Flowing (s : PerSessionCockpit) (t : PendingWithdrawal) : Prop where
  flight : s.withdrawalInFlight = true
  slot : FlowSlot s.withdrawal t
  said : Said s.stored t.requestId t.text
  requested : .requested t.requestId t.draftRevision ∈ s.log

theorem Flowing.aside (h : s.Flowing t) (hs : Aside s s') : s'.Flowing t :=
  ⟨hs.grows.flight.trans h.flight, hs.slot h.flight t h.slot, h.said.mono hs.grows.stored, hs.grows.log _ h.requested⟩

def Restored (s : PerSessionCockpit) (id : RequestId) : Prop :=
  ((s.submissionRecord id).bind (·.restoredAt)).isSome = true

theorem ready_owner (h : s.Preserved) (ht : s.Flowing t)
    (hlets : s.settleLifecycleObservation t.requestId (.server .withdrawn) v ≠ .preserve)
    (hrestored : s.withdrawal = none → s.Restored t.requestId) {p : PendingWithdrawal}
    (hp : s.pendingWithdrawalSelection t.requestId (some t) = some p) : s.Ready t.requestId p := by
  rw [pendingWithdrawalSelection, if_pos rfl] at hp
  cases hp
  rcases ht.slot with hslot | hslot | hslot
  · refine ⟨fun i => ?_, ht.said, ht.requested, .inl (hrestored hslot)⟩
    rw [hslot]
    exact not_inRecovery_none
  · exact ready_of_pending h hslot
  obtain ⟨text, since, hslot⟩ := hslot
  refine absurd ?_ hlets
  have hmatching : s.matchingWithdrawalRecovery t.requestId = true := by
    rw [matchingWithdrawalRecovery, hslot]
    exact decide_eq_true rfl
  rw [settleLifecycleObservation, if_pos hmatching]
  exact settle_recovery _ _

theorem preserved_owner (h : s.Preserved) (ht : s.Flowing t) {incoming : SubmissionLifecycleObservation}
    (detail : Option String) (hok : incoming = .server .withdrawn →
      s.settleLifecycleObservation t.requestId (.server .withdrawn) v = .preserve ∨
        (s.withdrawal = none → s.Restored t.requestId)) :
    (s.applyLifecycleObservation t.requestId incoming detail now v (ownedBy t)).Preserved := by
  refine preserved_apply h detail fun hin hlets p hp _ => ?_
  subst hin
  exact ready_owner h ht hlets ((hok rfl).resolve_left hlets) hp

end PerSessionCockpit

def WithdrawalWait.observedVersion (s : PerSessionCockpit) : WithdrawalWait → Int
  | .withdraw _ v => v
  | .status t _ | .retry t _ => s.currentVersion t.requestId

def WithdrawalReply.saysWithdrawn : WithdrawalReply → Bool
  | .withdrawal (.ok result) =>
    decide (result.outcome = .withdrawn ∨ (result.outcome = .notWithdrawable ∧ result.state = some .withdrawn))
  | .status (.ok (some submission)) => decide (submission.state = .withdrawn)
  | _ => false

def Answerable (s : PerSessionCockpit) (w : WithdrawalWait) (r : WithdrawalReply) : Prop :=
  r.saysWithdrawn = true →
    s.settleLifecycleObservation w.target.requestId (.server .withdrawn) (w.observedVersion s) = .preserve ∨
      (s.withdrawal = none → s.Restored w.target.requestId)

namespace PerSessionCockpit

variable {s s' : PerSessionCockpit} {now : Nat}

variable {t : PendingWithdrawal}

theorem preserved_applyWithdrawalResult (h : s.Preserved) (ht : s.Flowing t) {result : WithdrawalResultWire} {v : Int}
    (hok : (WithdrawalReply.withdrawal (.ok result)).saysWithdrawn = true →
      s.settleLifecycleObservation t.requestId (.server .withdrawn) v = .preserve ∨
        (s.withdrawal = none → s.Restored t.requestId)) : (s.applyWithdrawalResult t result v now).Preserved := by
  unfold applyWithdrawalResult
  split
  · rename_i houtcome
    exact preserved_owner h ht _ fun _ => hok (decide_eq_true (.inl houtcome))
  · rename_i state houtcome hstate
    refine preserved_owner h ht _ fun heq => hok (decide_eq_true (.inr ⟨houtcome, ?_⟩))
    cases heq
    exact hstate
  · exact h
  · exact preserved_owner h ht _ nofun

theorem grows_applyWithdrawalResult (t : PendingWithdrawal) (result : WithdrawalResultWire) (v : Int) :
    Grows s (s.applyWithdrawalResult t result v now) := by
  unfold applyWithdrawalResult
  split
  · exact grows_apply _ _ _ _
  · exact grows_apply _ _ _ _
  · exact .refl s
  · exact grows_apply _ _ _ _

structure Onward (s : PerSessionCockpit) (t : PendingWithdrawal) (next : PerSessionCockpit × Option WithdrawalWait) : Prop where
  preserved : next.1.Preserved
  grows : Grows s next.1
  goesOn : ∀ w, next.2 = some w → next.1 = s ∧ w.target = t

theorem onward_end (h : s'.Preserved) (hg : Grows s s') : Onward s t (s', none) :=
  ⟨h, hg, fun _ hw => nomatch hw⟩

theorem onward_same (h : s.Preserved) {w : Option WithdrawalWait} (hw : ∀ v, w = some v → v.target = t) :
    Onward s t (s, w) := ⟨h, .refl s, fun v hv => ⟨rfl, hw v hv⟩⟩

theorem onward_statusFollowUp (h : s.Preserved) (ht : s.Flowing t) (v : Int) {lookup : Option SubmissionStatusWire}
    (hok : (WithdrawalReply.status (.ok lookup)).saysWithdrawn = true →
      s.settleLifecycleObservation t.requestId (.server .withdrawn) (s.currentVersion t.requestId) = .preserve ∨
        (s.withdrawal = none → s.Restored t.requestId)) : Onward s t (s.statusFollowUp t v now lookup) := by
  unfold statusFollowUp
  split
  · exact onward_same h nofun
  split
  · exact onward_end (preserved_owner h ht _ nofun) (grows_apply _ _ _ _)
  rename_i submission
  split
  · refine onward_same h fun w hw => ?_
    cases hw
    rfl
  · refine onward_end (preserved_owner h ht _ fun heq => hok (decide_eq_true ?_)) (grows_apply _ _ _ _)
    exact SubmissionLifecycleObservation.server.inj heq

theorem onward_convergenceCatch (h : s.Preserved) (ht : s.Flowing t) (error : StatusError) (v : Int) :
    Onward s t (s.convergenceCatch t error v now, none) := by
  unfold convergenceCatch
  split
  · exact onward_end (preserved_owner h ht _ nofun) (grows_apply _ _ _ _)
  · exact onward_same h nofun

theorem onward_answered (h : s.Preserved) {w : WithdrawalWait} (ht : s.Flowing w.target) {r : WithdrawalReply}
    (hok : Answerable s w r) {next : PerSessionCockpit × Option WithdrawalWait}
    (hnext : s.withdrawalAnswered now w r = some next) : Onward s w.target next := by
  unfold withdrawalAnswered at hnext
  split at hnext <;> cases hnext
  · exact onward_end (preserved_applyWithdrawalResult h ht hok) (grows_applyWithdrawalResult _ _ _)
  · exact onward_end (preserved_owner h ht _ nofun) (grows_apply _ _ _ _)
  · refine onward_same h fun w hw => ?_
    unfold reconcileWithdrawalAfterLoss at hw
    split at hw <;> cases hw
    rfl
  · exact onward_statusFollowUp h ht _ hok
  · exact onward_convergenceCatch h ht _ _
  · exact onward_end (preserved_applyWithdrawalResult h ht hok) (grows_applyWithdrawalResult _ _ _)
  · exact onward_convergenceCatch h ht _ _

end PerSessionCockpit

end AgentsRemember.Cockpit
