import AgentsRemember.Cockpit.DriverSound
import Mathlib.Data.List.Pairwise

/-!
# A delivery is never un-known

The poller and the withdrawal flow settle an answer with the stored record, so
what they write knows all that it knew. The driver of a submit writes what it
made of its own copy, whatever is stored by then.
-/

namespace AgentsRemember.Cockpit

open Lib
open Harness (SubmissionLifecycleState)

/-! ## The store -/

namespace PerSessionCockpit

def Behind (s : PerSessionCockpit) (r : SubmitRecord) : Prop :=
  ∀ old ∈ s.stored, old.requestId = r.requestId → Knows old r

structure Kept (s : PerSessionCockpit) (id : RequestId) (r : SubmitRecord) : Prop where
  named : r.requestId = id
  coherent : Coherent r
  issued : id < s.issued
  behind : s.Behind r

structure Known (s : PerSessionCockpit) : Prop where
  ordered : s.stored.Pairwise fun old new => old.requestId = new.requestId → Knows old new
  kept : ∀ id r, s.submissionRecord id = some r → s.Kept id r
  issued : ∀ r ∈ s.stored, r.requestId < s.issued

structure SameRecords (s s' : PerSessionCockpit) : Prop where
  submitHistory : s'.submitHistory = s.submitHistory
  issued : s'.issued = s.issued
  stored : s'.stored = s.stored

variable {s s' : PerSessionCockpit} {r n : SubmitRecord} {id : RequestId}

theorem Behind.same (hs : SameRecords s s') (h : s.Behind r) : s'.Behind r := by
  rw [Behind, hs.stored]
  exact h

theorem Known.same (h : s.Known) (hs : SameRecords s s') : s'.Known := by
  refine ⟨?_, fun id r hr => ?_, ?_⟩
  · rw [hs.stored]
    exact h.ordered
  · rw [submissionRecord, hs.submitHistory] at hr
    have hk := h.kept id r hr
    exact ⟨hk.named, hk.coherent, hs.issued ▸ hk.issued, hk.behind.same hs⟩
  · rw [hs.stored, hs.issued]
    exact h.issued

theorem SameRecords.refl (s : PerSessionCockpit) : SameRecords s s := ⟨rfl, rfl, rfl⟩

theorem SameRecords.trans {u : PerSessionCockpit} (h : SameRecords s s') (h' : SameRecords s' u) : SameRecords s u :=
  ⟨h'.1.trans h.1, h'.2.trans h.2, h'.3.trans h.3⟩

theorem same_note (e : CockpitEvent) : SameRecords s (s.note e) := ⟨rfl, rfl, rfl⟩

theorem Behind.upsert_other (h : s.Behind r) (hne : n.requestId ≠ r.requestId) : (s.upsertSubmitRecord n).Behind r := by
  intro old hold hid
  rcases List.mem_append.mp hold with hold | hold
  · exact h old hold hid
  · rw [List.mem_singleton.mp hold] at hid
    exact absurd hid hne

theorem Behind.upsert_self (h : s.Behind n) (hn : Coherent n) : (s.upsertSubmitRecord n).Behind n := by
  intro old hold hid
  rcases List.mem_append.mp hold with hold | hold
  · exact h old hold hid
  · rw [List.mem_singleton.mp hold]
    exact hn.knows

theorem Known.upsert (h : s.Known) (hn : Coherent n) (hissued : n.requestId < s.issued) (hbehind : s.Behind n) :
    (s.upsertSubmitRecord n).Known := by
  refine ⟨?_, fun id r hr => ?_, fun r hr => ?_⟩
  · refine List.pairwise_append.mpr ⟨h.ordered, List.pairwise_singleton _ _, fun old hold new hnew => ?_⟩
    rw [List.mem_singleton.mp hnew]
    exact hbehind old hold
  · rcases submissionRecord_upsert hr with ⟨rfl, rfl⟩ | ⟨hne, hr⟩
    · exact ⟨rfl, hn, hissued, hbehind.upsert_self hn⟩
    · have hk := h.kept id r hr
      exact { hk with behind := hk.behind.upsert_other fun heq => hne (hk.named.symm.trans heq.symm) }
  rcases List.mem_append.mp hr with hr | hr
  · exact h.issued r hr
  · rw [List.mem_singleton.mp hr]
    exact hissued

theorem Behind.knows (h : s.Behind r) (hid : n.requestId = r.requestId) (hk : Knows r n) : s.Behind n :=
  fun old hold heq => (h old hold (heq.trans hid)).trans hk

theorem Known.replace (h : s.Known) (hr : s.submissionRecord id = some r) (hid : n.requestId = r.requestId)
    (hn : Knows r n ∧ Coherent n) : (s.upsertSubmitRecord n).Known := by
  have hk := h.kept id r hr
  refine h.upsert hn.2 ?_ (hk.behind.knows hid hn.1)
  rw [hid, hk.named]
  exact hk.issued

theorem Known.project {f : SubmitRecord → SubmitRecord} (h : s.Known) (hid : ∀ r, (f r).requestId = r.requestId)
    (hf : ∀ r, s.submissionRecord id = some r → Coherent r → Knows r (f r) ∧ Coherent (f r)) :
    (s.applyProjectedRecord ((s.submissionRecord id).map f)).Known := by
  cases hr : s.submissionRecord id with
  | none => exact h
  | some r => exact h.replace hr (hid r) (hf r hr (h.kept id r hr).coherent)

end PerSessionCockpit

/-! ## A settled observation -/

variable {current : SubmissionObservationSnapshot} {incoming o : SubmissionLifecycleObservation} {v : Int}
  {r : SubmitRecord}

theorem settle_incoming (h : settleSubmissionObservation (some current) incoming v = .incoming o) :
    o = incoming ∧ observationEvidenceRank (observationEvidence current.observation) ≤
      observationEvidenceRank (observationEvidence incoming) := by
  simp only [settleSubmissionObservation] at h
  split at h
  · cases h
  split at h
  · cases h
    exact ⟨rfl, by omega⟩
  split at h
  · cases h
  · cases h
    exact ⟨rfl, by omega⟩

theorem settle_join (h : settleSubmissionObservation (some current) incoming v = .possibleSendJoin) :
    observationEvidence current.observation ≠ .definitive := by
  simp only [settleSubmissionObservation] at h
  split at h
  · rename_i hjoin
    rcases hjoin with ⟨hc, -⟩ | ⟨hc, -⟩ <;> rw [hc] <;> decide
  split at h
  · cases h
  · split at h <;> cases h

theorem sent_of_rank (h : 2 ≤ observationEvidenceRank (observationEvidence o)) :
    ∃ state, o = .server state ∧ state ≠ .queued := by
  cases o with
  | server state =>
    refine ⟨state, rfl, ?_⟩
    rintro rfl
    exact absurd h (by decide)
  | notFound => exact absurd h (by decide)
  | generationLost => exact absurd h (by decide)

theorem observationEvidence_definitive {state : SubmissionLifecycleState} :
    observationEvidence (.server state) = .definitive ↔ state ∈ definitiveServerStates := by
  cases state <;> decide

theorem definitive_of_rank (h : 4 ≤ observationEvidenceRank (observationEvidence o)) :
    ∃ state, o = .server state ∧ state ∈ definitiveServerStates := by
  cases o with
  | server state =>
    refine ⟨state, rfl, ?_⟩
    revert h
    cases state <;> decide
  | notFound => exact absurd h (by decide)
  | generationLost => exact absurd h (by decide)

def Observable (r : SubmitRecord) : SubmissionLifecycleObservation → Prop
  | .server state => Admissible r state
  | .notFound | .generationLost => ¬ r.Definitive ∧ ¬ r.PossiblySent

theorem projectObservation_knows (h : Observable r o) (detail : Option String) (now : Nat) :
    Knows r (projectObservation r o detail now) ∧ Coherent (projectObservation r o detail now) := by
  cases o with
  | server state => exact project_knows h detail now
  | notFound => exact knows_of_lost h.1 h.2 rfl (Nat.le_succ _)
  | generationLost => exact knows_of_lost h.1 h.2 rfl (Nat.le_succ _)

theorem projectObservation_id (r : SubmitRecord) (o : SubmissionLifecycleObservation) (detail : Option String) (now : Nat) :
    (projectObservation r o detail now).requestId = r.requestId := by
  cases o <;> rfl

theorem snapshot_cases (h : Coherent r) :
    (¬ r.Definitive ∧ ¬ r.PossiblySent) ∨ ∃ state, r.serverLifecycleState = some state ∧
      submissionObservationSnapshot (some r) = some ⟨.server state, some r.lifecycleObservationVersion⟩ := by
  cases hstate : r.serverLifecycleState with
  | none =>
    refine .inl ⟨fun hr => ?_, fun hr => ?_⟩
    · rw [SubmitRecord.Definitive, hstate] at hr
      cases hr
    · rw [SubmitRecord.PossiblySent, hstate] at hr
      rcases hr with hr | hr <;> cases hr
  | some state =>
    refine .inr ⟨state, rfl, ?_⟩
    have hlost : ¬ (r.phase = .notFound ∨ r.phase = .generationLost) := fun hr => by cases hstate.symm.trans (h.lost hr)
    rw [submissionObservationSnapshot, Option.bind_some]
    split
    · exact absurd (.inl ‹_›) hlost
    · exact absurd (.inr ‹_›) hlost
    · rw [hstate]
      rfl

theorem observable_of_not (h : ¬ r.Definitive ∧ ¬ r.PossiblySent) (o : SubmissionLifecycleObservation) :
    Observable r o := by
  cases o with
  | server state => exact ⟨fun hr => absurd hr h.1, fun hr => absurd hr h.2⟩
  | notFound => exact h
  | generationLost => exact h

theorem observable_of_incoming (hr : Coherent r)
    (h : settleSubmissionObservation (submissionObservationSnapshot (some r)) incoming v = .incoming o) :
    Observable r o := by
  rcases snapshot_cases hr with hnot | ⟨state, hstate, hsnapshot⟩
  · exact observable_of_not hnot o
  rw [hsnapshot] at h
  obtain ⟨rfl, hrank⟩ := settle_incoming h
  have hd : r.Definitive → state ∈ definitiveServerStates := by
    rw [SubmitRecord.Definitive, hstate, Option.any_some, decide_eq_true_iff]
    exact id
  have hp : r.PossiblySent → state = .dispatching ∨ state = .unknown := by
    rw [SubmitRecord.PossiblySent, hstate, Option.some.injEq, Option.some.injEq]
    exact id
  have hdef : r.Definitive → ∃ state, o = .server state ∧ state ∈ definitiveServerStates := by
    intro hr
    refine definitive_of_rank (le_trans (Eq.ge ?_) hrank)
    rw [observationEvidence_definitive.mpr (hd hr)]
    rfl
  have hsent : r.PossiblySent → ∃ state, o = .server state ∧ state ≠ .queued := by
    intro hr
    refine sent_of_rank (le_trans ?_ hrank)
    rcases hp hr with rfl | rfl
    · exact Nat.le_refl 2
    · exact Nat.le_succ 2
  cases o with
  | server incoming =>
    refine ⟨fun hr => ?_, fun hr => ?_⟩
    · obtain ⟨_, heq, hin⟩ := hdef hr
      cases heq
      exact hin
    obtain ⟨_, heq, hne⟩ := hsent hr
    cases heq
    exact hne
  | notFound => exact ⟨fun hr => (by cases (hdef hr).choose_spec.1), fun hr => (by cases (hsent hr).choose_spec.1)⟩
  | generationLost => exact ⟨fun hr => (by cases (hdef hr).choose_spec.1), fun hr => (by cases (hsent hr).choose_spec.1)⟩

theorem observable_of_join (hr : Coherent r)
    (h : settleSubmissionObservation (submissionObservationSnapshot (some r)) incoming v = .possibleSendJoin) :
    Observable r (.server .unknown) := by
  rcases snapshot_cases hr with hnot | ⟨state, hstate, hsnapshot⟩
  · exact observable_of_not hnot _
  rw [hsnapshot] at h
  have hne := settle_join h
  refine ⟨fun hd => absurd ?_ hne, fun _ => nofun⟩
  rw [SubmitRecord.Definitive, hstate, Option.any_some, decide_eq_true_iff] at hd
  exact observationEvidence_definitive.mpr hd

/-! ## What an answer writes -/

namespace PerSessionCockpit

variable {s : PerSessionCockpit} {id : RequestId} {now : Nat}

theorem same_dequeueSubmit : SameRecords s (s.dequeueSubmit id) := ⟨rfl, rfl, rfl⟩

theorem same_setWithdrawal (w : Option WithdrawalState) : SameRecords s (s.setWithdrawal w) := ⟨rfl, rfl, rfl⟩

theorem same_setComposerDraft (draft : String) : SameRecords s (s.setComposerDraft draft) := ⟨rfl, rfl, rfl⟩

theorem same_clearSettledWithdrawal (owner : Bool) : SameRecords s (s.clearSettledWithdrawal id owner) := by
  unfold clearSettledWithdrawal
  split
  · exact .refl s
  split
  · exact .refl s
  · exact same_setWithdrawal _

theorem same_dequeueUnlessQueued (o : SubmissionLifecycleObservation) (options : LifecycleObservationOptions) :
    SameRecords s (s.dequeueUnlessQueued id o options) := by
  unfold dequeueUnlessQueued
  split
  · exact .refl s
  · exact same_dequeueSubmit.trans (same_clearSettledWithdrawal _)

theorem known_resolve (h : s.Known) (detail : Option String) (issuedWithdrawal : Option PendingWithdrawal) :
    (s.resolveAuthoritativeWithdrawal id detail now issuedWithdrawal).Known := by
  have hproject : ∀ {u : PerSessionCockpit} (f : SubmitRecord → SubmitRecord), SameRecords s u →
      (∀ r, (f r).requestId = r.requestId) →
      (∀ r, Knows r (f r) ∧ Coherent (f r)) → (u.applyProjectedRecord ((s.submissionRecord id).map f)).Known := by
    intro u f hu hid hf
    have : s.submissionRecord id = u.submissionRecord id := by rw [submissionRecord, submissionRecord, hu.submitHistory]
    rw [this]
    exact (h.same hu).project hid fun r _ _ => hf r
  have hwithdrawn : ∀ r : SubmitRecord, Admissible r .withdrawn := fun r => ⟨fun _ => by decide, fun _ => by simp⟩
  have hplain : ∀ {u : PerSessionCockpit}, SameRecords s u →
      (u.applyProjectedRecord ((s.submissionRecord id).map (withdrawnRecord detail now))).Known := fun hu =>
    hproject _ hu (fun _ => rfl) fun r => project_knows (hwithdrawn r) _ _
  have hrestored : ∀ {u : PerSessionCockpit}, SameRecords s u →
      (u.applyProjectedRecord ((s.submissionRecord id).map (restoredRecord now ∘ withdrawnRecord detail now))).Known := fun hu =>
    hproject _ hu (fun _ => rfl) fun r => knows_of_state (hwithdrawn r) rfl rfl (Nat.le_succ _)
  have hnoted : ∀ pending, SameRecords s ((s.dequeueSubmit id).note (.withdrawn id pending)) :=
    fun pending => same_dequeueSubmit.trans (same_note _)
  unfold resolveAuthoritativeWithdrawal
  dsimp only
  split
  · exact hplain (hnoted _)
  split
  · exact (hplain (hnoted _)).same (same_setWithdrawal _)
  unfold restoreOrRecoverWithdrawal replaceComposerDraftIfRevision
  split
  · rename_i replaced hreplaced
    split at hreplaced
    · cases hreplaced
    cases hreplaced
    unfold restoreOutcome
    rw [Option.map_map]
    refine Known.same (hrestored ?_) (same_setWithdrawal _)
    exact (hnoted _).trans ((same_setComposerDraft _).trans (same_note _))
  · refine Known.same ?_ (same_note _)
    exact (hplain (hnoted _)).same (same_setWithdrawal _)

theorem known_applySettled (h : s.Known) {o : SubmissionLifecycleObservation}
    (ho : ∀ r, s.submissionRecord id = some r → Observable r o) (detail : Option String)
    (options : LifecycleObservationOptions) : (s.applySettled id o detail now options).Known := by
  unfold applySettled
  split
  · exact known_resolve h _ _
  · refine Known.same ?_ (same_dequeueUnlessQueued _ _)
    exact h.project (fun r => projectObservation_id r _ _ _) fun r hr _ => projectObservation_knows (ho r hr) _ _

theorem known_applyLifecycleObservation (h : s.Known) (incoming : SubmissionLifecycleObservation) (detail : Option String)
    (v : Int) (options : LifecycleObservationOptions) :
    (s.applyLifecycleObservation id incoming detail now v options).Known := by
  unfold applyLifecycleObservation settleLifecycleObservation
  split
  · split
    · exact h.same (same_clearSettledWithdrawal _)
    · exact h
  all_goals
    rename_i hsettle
    split at hsettle
    · rw [settle_recovery] at hsettle
      cases hsettle
    refine known_applySettled h (fun r hr => ?_) _ _
    rw [hr] at hsettle
    first
      | exact observable_of_incoming (h.kept id r hr).coherent hsettle
      | exact observable_of_join (h.kept id r hr).coherent hsettle

theorem known_pollAnswered (h : s.Known) (p : PollWait) (answer : Except StatusError StatusBatch) :
    (s.pollAnswered p answer).1.Known := by
  have hfold : ∀ {f : PerSessionCockpit → PollTarget → PerSessionCockpit}, (∀ s t, Known s → (f s t).Known) →
      ∀ (page : List PollTarget) {s : PerSessionCockpit}, s.Known → (page.foldl f s).Known := by
    intro f hf page
    induction page with
    | nil => exact fun h => h
    | cons t page ih => exact fun h => ih (hf _ t h)
  unfold pollAnswered
  split
  · refine hfold (fun s t hs => ?_) _ h
    unfold applyLookup
    split <;> exact known_applyLifecycleObservation hs _ _ _ _
  · exact hfold (fun s t hs => known_applyLifecycleObservation hs _ _ _ _) _ h
  · exact h

variable {r : SubmitRecord} {turn : DriverTurn}

theorem unended_of_expired (h : lifecycleWatchState r now = .expired) : ¬ r.Definitive := by
  rw [lifecycleWatchState] at h
  split at h
  · cases h
  rename_i state hstate
  split at h
  · cases h
  rename_i hnot
  rw [SubmitRecord.Definitive, hstate, Option.any_some, decide_eq_true_iff]
  exact fun hin => hnot (.inl hin)

theorem known_appendWatched (records : List SubmitRecord) : ∀ {targets : List PollTarget} {s : PerSessionCockpit}, s.Known →
    (∀ r ∈ records, Coherent r ∧ r.requestId < s.issued ∧ s.Behind r) → (records.map (·.requestId)).Nodup →
    (records.foldl (appendWatchedTarget now) (targets, s)).2.Known := by
  induction records with
  | nil => exact fun h _ _ => h
  | cons r records ih =>
    intro targets s h hall hnodup
    obtain ⟨hcoherent, hissued, hbehind⟩ := hall r List.mem_cons_self
    rw [List.map_cons, List.nodup_cons] at hnodup
    have hrest := fun r' hr' => hall r' (List.mem_cons_of_mem _ hr')
    rw [List.foldl_cons]
    unfold appendWatchedTarget
    dsimp only
    split
    · exact ih h hrest hnodup.2
    split
    · exact ih h hrest hnodup.2
    · rename_i hexpired
      have hk : Knows r (enterEndgame r now) ∧ _ := knows_of_phase (unended_of_expired hexpired)
        (show SubmitPhase.endgame ∉ unsentPhases by decide) rfl rfl
      refine ih (h.upsert hk.2 hissued (hbehind.knows rfl hk.1)) (fun r' hr' => ?_) hnodup.2
      obtain ⟨hcoherent', hissued', hbehind'⟩ := hrest r' hr'
      refine ⟨hcoherent', hissued', hbehind'.upsert_other fun heq => hnodup.1 ?_⟩
      exact List.mem_map.mpr ⟨r', hr', heq.symm⟩
    · exact ih h hrest hnodup.2

theorem known_startPoll (h : s.Known) : (s.startPoll now).1.Known := by
  have hentry : ∀ {e}, e ∈ s.submitHistory.entries → s.Kept e.1 e.2 :=
    fun he => h.kept _ _ (Dict.get?_eq_some.mpr he)
  refine known_appendWatched s.submitHistory.values h (fun r hr => ?_) ?_
  · obtain ⟨e, he, rfl⟩ := List.mem_map.mp hr
    have hk := hentry he
    exact ⟨hk.coherent, hk.named ▸ hk.issued, hk.behind⟩
  have hids : s.submitHistory.values.map (·.requestId) = s.submitHistory.keys := by
    rw [Dict.values, Dict.keys, List.map_map]
    exact List.map_congr_left fun e he => (hentry he).named
  rw [hids]
  exact s.submitHistory.nodup

/-! ## The withdrawal flow and the operator -/

theorem known_applyWithdrawalResult (h : s.Known) (target : PendingWithdrawal) (result : WithdrawalResultWire) (v : Int) :
    (s.applyWithdrawalResult target result v now).Known := by
  unfold applyWithdrawalResult
  split
  · exact known_applyLifecycleObservation h _ _ _ _
  · exact known_applyLifecycleObservation h _ _ _ _
  · exact h
  · exact known_applyLifecycleObservation h _ _ _ _

theorem known_statusFollowUp (h : s.Known) (target : PendingWithdrawal) (v : Int) (lookup : Option SubmissionStatusWire) :
    (s.statusFollowUp target v now lookup).1.Known := by
  unfold statusFollowUp
  split
  · exact h
  split
  · exact known_applyLifecycleObservation h _ _ _ _
  split
  · exact h
  · exact known_applyLifecycleObservation h _ _ _ _

theorem known_convergenceCatch (h : s.Known) (target : PendingWithdrawal) (error : StatusError) (v : Int) :
    (s.convergenceCatch target error v now).Known := by
  unfold convergenceCatch
  split
  · exact known_applyLifecycleObservation h _ _ _ _
  · exact h

theorem known_withdrawalAnswered (h : s.Known) {w : WithdrawalWait} {r : WithdrawalReply}
    {next : PerSessionCockpit × Option WithdrawalWait} (hnext : s.withdrawalAnswered now w r = some next) : next.1.Known := by
  unfold withdrawalAnswered at hnext
  split at hnext <;> cases hnext
  · exact known_applyWithdrawalResult h _ _ _
  · exact known_applyLifecycleObservation h _ _ _ _
  · exact h
  · exact known_statusFollowUp h _ _ _
  · exact known_convergenceCatch h _ _ _
  · exact known_applyWithdrawalResult h _ _ _
  · exact known_convergenceCatch h _ _ _

theorem same_withdrawLastQueued : SameRecords s (s.withdrawLastQueued now).1 := by
  unfold withdrawLastQueued withdrawalTargetFor
  split
  · rename_i heq
    split at heq
    · cases heq
    · cases heq
      exact .refl s
    split at heq
    · cases heq
      exact (same_setWithdrawal _).trans (same_note _)
    · cases heq
  rename_i heq
  split at heq
  · cases heq
    exact .refl s
  · cases heq
  split at heq
  · cases heq
  · cases heq
    exact .refl s

theorem known_restoreWithdrawnRecovery (h : s.Known) (revision : Nat) : (s.restoreWithdrawnRecovery id revision now).Known := by
  unfold restoreWithdrawnRecovery replaceComposerDraftIfRevision
  split
  · split
    · exact h
    split
    · exact h
    rename_i hreplaced
    split at hreplaced
    · cases hreplaced
    cases hreplaced
    refine Known.same ?_ (same_setWithdrawal _)
    refine Known.project ((h.same (same_setComposerDraft _)).same (same_note _)) (fun _ => rfl) fun r _ hr => ?_
    exact hr.same rfl rfl rfl
  · exact h

theorem known_dismissWithdrawnRecovery (h : s.Known) (revision : Nat) : (s.dismissWithdrawnRecovery id revision now).Known := by
  unfold dismissWithdrawnRecovery
  split
  · exact h
  rename_i hdismissed
  have hsame : SameRecords s ‹_› := by
    unfold dismissWithdrawalRecoveryIfMatches at hdismissed
    split at hdismissed
    · split at hdismissed
      · cases hdismissed
      · cases hdismissed
        exact same_setWithdrawal _
    · cases hdismissed
  refine Known.project ((h.same hsame).same (same_note _)) (fun _ => rfl) fun r _ hr => ?_
  exact hr.same rfl rfl rfl

theorem same_settleStoredSubmission (r : SubmitRecord) : SameRecords s (s.settleStoredSubmission r) := by
  have hqueue : SameRecords s (s.queueComposerSubmission r) := by
    unfold queueComposerSubmission
    split
    · exact .refl s
    split
    · exact .refl s
    · exact ⟨rfl, rfl, rfl⟩
  refine hqueue.trans ?_
  unfold settleStoredSubmission maybeClearDraft clearComposerDraftIfRevision
  split
  · split
    · exact .refl _
    · exact same_setComposerDraft _
  · exact .refl _

theorem known_upsertAll (hext : turn.Extends r) : ∀ {s : PerSessionCockpit}, s.Known →
    s.Behind r → r.requestId < s.issued → (s.upsertAll turn.writes).Known := by
  induction hext with
  | wait hw hr => exact fun h _ _ => h
  | final r => exact fun h _ _ => h
  | @update r r' rest hid hk hrest ih =>
    intro s h hbehind hissued
    have hbehind' := hbehind.knows hid hk.1
    have hissued' : r'.requestId < s.issued := hid ▸ hissued
    exact ih (h.upsert hk.2 hissued' hbehind') (hbehind'.upsert_self hk.2) hissued'

theorem known_drive (hext : turn.Extends r) (h : s.Known) (hbehind : s.Behind r) (hissued : r.requestId < s.issued) :
    (s.drive turn).Known := by
  have hknown := known_upsertAll hext h hbehind hissued
  unfold drive
  split
  · exact hknown
  · exact hknown.same (same_settleStoredSubmission _)

end PerSessionCockpit

theorem DriverTurn.Extends.waits {turn : DriverTurn} (hext : turn.Extends r) : ∀ {w : DriverWait},
    turn.next = .wait w → Unresolved w.record := by
  induction hext with
  | wait hw hr =>
    intro w h
    cases h
    exact hw ▸ hr
  | final r => exact fun h => nomatch h
  | update hid hk hrest ih => exact fun h => ih h

/-! ## Every run -/

/-- A driver that goes on finds nothing stored that its own copy does not know, and where that copy has the evidence of
a send, the answer is no queued word and no lost generation. -/
def UpToDate (w : World) : Action → Prop
  | .call _ _ => True
  | .resume i r now =>
    match w.tasks[i]?, r with
    | some (some (.driver _ wait)), .driver reply =>
      (∃ stored, w.cockpit.submissionRecord wait.record.requestId = some stored ∧ Knows stored wait.record) ∧
        (wait.record.PossiblySent → reply.unknows wait.bounds.deadlineAt now = false)
    | _, _ => True

/-- Of one request, no record knows less than one stored before it. -/
def NeverUnknown (ok : World → Action → Prop) : Prop :=
  ∀ w, Reachable cockpitSystem ok w →
    w.cockpit.stored.Pairwise fun old new => old.requestId = new.requestId → Knows old new

/-- What a suspended driver waits with. -/
def Waiting.Sound : Waiting → Prop
  | .driver _ w => Unresolved w.record
  | _ => True

structure Steady (next : PerSessionCockpit × Option Waiting) : Prop where
  known : next.1.Known
  task : ∀ t, next.2 = some t → t.Sound

namespace PerSessionCockpit

variable {s : PerSessionCockpit} {now : Nat}

theorem steady_driveOn {turn : DriverTurn} {r : SubmitRecord} (lifecycle : Bool) (hext : turn.Extends r) (h : s.Known)
    (hbehind : s.Behind r) (hissued : r.requestId < s.issued) : Steady (s.driveOn lifecycle turn) := by
  refine ⟨known_drive hext h hbehind hissued, fun t ht => ?_⟩
  cases hnext : turn.next with
  | final r => simp [driveOn, hnext, DriverNext.waiting] at ht
  | wait w =>
    simp only [driveOn, hnext, DriverNext.waiting, Option.some.injEq] at ht
    subst ht
    exact hext.waits hnext

theorem steady_done (h : s.Known) : Steady (s, none) := ⟨h, fun _ ht => nomatch ht⟩

theorem steady_poll {s' : PerSessionCockpit} (h : s'.Known) (p : Option PollWait) : Steady (s', p.map .poll) := by
  refine ⟨h, fun t ht => ?_⟩
  obtain ⟨p, -, rfl⟩ := Option.map_eq_some_iff.mp ht
  exact trivial

theorem steady_startSubmit (h : s.Known) (text : String) (source : SubmitSource) (clear : Bool) (revision : Nat)
    (epoch : String) : Steady (s.startSubmit text source clear revision epoch now) := by
  have hmore : { s with issued := s.issued + 1 }.Known := by
    refine ⟨h.ordered, fun id r hr => ?_, fun r hr => (h.issued r hr).trans (Nat.lt_succ_self _)⟩
    have hk := h.kept id r hr
    exact { hk with issued := hk.issued.trans (Nat.lt_succ_self _) }
  have hfresh : ∀ {r : SubmitRecord}, r.requestId = s.issued → { s with issued := s.issued + 1 }.Behind r := by
    intro r hr old hold hid
    exact absurd (h.issued old hold) (by rw [hid, hr]; exact Nat.lt_irrefl _)
  have hnew : ∀ {r : SubmitRecord}, r.phase = .sending → r.serverLifecycleState = none →
      (executeReliableSubmit r now).Extends r := by
    intro r hphase hstate
    have hunended : ¬ r.Definitive := by
      rw [SubmitRecord.Definitive, hstate]
      decide
    have hcoherent : Coherent r := by
      refine ⟨fun hr => absurd hr hunended, fun _ => ?_, fun _ => hstate⟩
      rw [hphase]
      decide
    exact executeReliableSubmit_extends rfl ⟨hcoherent.knows, hcoherent⟩ hunended
  refine steady_driveOn true (hnew ?_ ?_) hmore (hfresh ?_) (Nat.lt_succ_self _)
  all_goals rfl

theorem steady_keepWaiting (h : s.Known) (lifecycle : Bool) (id : RequestId) : Steady (s.keepWaiting lifecycle id now) := by
  unfold keepWaiting
  split
  · exact steady_done h
  rename_i record hrecord
  obtain ⟨hrecord, hphase⟩ := Option.filter_eq_some_iff.mp hrecord
  have hk := h.kept id record hrecord
  have hunended := hk.coherent.not_definitive (by rw [of_decide_eq_true hphase]; decide)
  exact steady_driveOn lifecycle (reconcileWindow_extends ⟨hk.coherent, hunended⟩) h hk.behind (hk.named ▸ hk.issued)

theorem steady_retryRoute (h : s.Known) (lifecycle : Bool) (id : RequestId) (text : String) :
    Steady (s.retryRoute lifecycle id text now) := by
  unfold retryRoute
  split
  · exact steady_done h
  rename_i record hrecord
  obtain ⟨hrecord, hphase⟩ := Option.filter_eq_some_iff.mp hrecord
  have hk := h.kept id record hrecord
  have hunended := hk.coherent.not_definitive (by rw [of_decide_eq_true hphase]; decide)
  refine steady_driveOn lifecycle (executeReliableSubmit_extends ?_ ?_ hunended) h hk.behind (hk.named ▸ hk.issued)
  · rfl
  · exact knows_of_phase hunended (show SubmitPhase.sending ∉ unsentPhases by decide) rfl rfl

theorem known_releaseSubmit (h : s.Known) (id : RequestId) : (s.releaseSubmit id now).Known := by
  unfold releaseSubmit
  cases hrecord : (s.submissionRecord id).filter fun record => record.phase = .endgame with
  | none => exact h
  | some record =>
    obtain ⟨hrecord, hphase⟩ := Option.filter_eq_some_iff.mp hrecord
    have hunended := (h.kept id record hrecord).coherent.not_definitive (by rw [of_decide_eq_true hphase]; decide)
    exact h.replace hrecord rfl (knows_of_phase hunended (show SubmitPhase.released ∉ unsentPhases by decide) rfl rfl)

theorem steady_withdrawLast (h : s.Known) : Steady (s.withdrawLast now) := by
  have hsame : SameRecords s (s.withdrawLastQueued now).1 := same_withdrawLastQueued
  unfold withdrawLast
  split
  · exact steady_done h
  split
  · rename_i heq
    rw [heq] at hsame
    refine ⟨(h.same hsame).same ⟨rfl, rfl, rfl⟩, fun t ht => ?_⟩
    cases ht
    exact trivial
  rename_i heq
  rw [heq] at hsame
  exact steady_done (h.same hsame)

theorem steady_run (h : s.Known) (now : Nat) (c : Call) : Steady (s.run now c) := by
  have hsubmit : ∀ ready text source clear revision, Steady (s.submitText ready text source clear revision) := by
    intro ready text source clear revision
    unfold submitText
    split
    · exact steady_done h
    refine ⟨h, fun t ht => ?_⟩
    cases ht
    exact trivial
  cases c with
  | submitSessionText ready text source clear => exact hsubmit _ _ _ _ _
  | submitSessionDraft ready => exact hsubmit _ _ _ _ _
  | keepWaitingForSubmit lifecycle id => exact steady_keepWaiting h lifecycle id
  | releaseSubmitDraft id => exact steady_done (known_releaseSubmit h id)
  | retryRouteFailure lifecycle id text => exact steady_retryRoute h lifecycle id text
  | pollSubmissionLifecycleOnce => exact steady_poll (known_startPoll h) _
  | withdrawLastQueuedSubmission => exact steady_withdrawLast h
  | restoreWithdrawnRecovery id revision => exact steady_done (known_restoreWithdrawnRecovery h revision)
  | dismissWithdrawnRecovery id revision => exact steady_done (known_dismissWithdrawnRecovery h revision)
  | setComposerDraft draft => exact steady_done (h.same (same_setComposerDraft _))
  | clearComposerDraftIfRevision revision =>
    refine steady_done ?_
    unfold clearComposerDraftIfRevision
    split
    · exact h
    · exact h.same (same_setComposerDraft _)

theorem steady_afterWithdrawal (h : s.Known) (w : Option WithdrawalWait) : Steady (s.afterWithdrawal w) := by
  cases w with
  | none => exact steady_done (h.same ⟨rfl, rfl, rfl⟩)
  | some w =>
    refine ⟨h, fun t ht => ?_⟩
    cases ht
    exact trivial

theorem steady_resume (h : s.Known) {t : Waiting} {r : Reply} {next : PerSessionCockpit × Option Waiting} (ht : t.Sound)
    (hdriver : ∀ lifecycle w reply, t = .driver lifecycle w → r = .driver reply →
      (∃ stored, s.submissionRecord w.record.requestId = some stored ∧ Knows stored w.record) ∧
        (w.record.PossiblySent → reply.unknows w.bounds.deadlineAt now = false))
    (hnext : s.resume now t r = some next) : Steady next := by
  unfold resume at hnext
  split at hnext
  · cases hnext
    exact steady_startSubmit h _ _ _ _ _
  · cases hnext
    exact steady_done h
  · rename_i lifecycle w reply
    split at hnext
    · obtain ⟨turn, hturn, rfl⟩ := Option.map_eq_some_iff.mp hnext
      obtain ⟨⟨stored, hstored, hknows⟩, hanswer⟩ := hdriver lifecycle w reply rfl rfl
      have hk := h.kept _ stored hstored
      exact steady_driveOn lifecycle (resume_extends ht hanswer hturn) h (hk.behind.knows hk.named.symm hknows) hk.issued
    · cases hnext
  · cases hnext
    exact steady_poll (known_pollAnswered h _ _) _
  · obtain ⟨left, hleft, rfl⟩ := Option.map_eq_some_iff.mp hnext
    exact steady_afterWithdrawal (known_withdrawalAnswered h hleft) _
  · cases hnext

end PerSessionCockpit

structure World.Sound (w : World) : Prop where
  known : w.cockpit.Known
  tasks : ∀ t, some t ∈ w.tasks → t.Sound

theorem World.Sound.step {w v : World} {a : Action} (h : w.Sound) (hok : UpToDate w a) (hstep : w.step a = some v) :
    v.Sound := by
  cases a with
  | call c now =>
    cases hstep
    have hnext := PerSessionCockpit.steady_run h.known now c
    refine ⟨hnext.known, fun t ht => ?_⟩
    rcases List.mem_append.mp ht with ht | ht
    · exact h.tasks t ht
    · exact hnext.task t (List.mem_singleton.mp ht).symm
  | resume i r now =>
    simp only [World.step] at hstep
    split at hstep
    · rename_i waiting hi
      obtain ⟨next, hnext, rfl⟩ := Option.map_eq_some_iff.mp hstep
      have hsteady : Steady next := by
        refine PerSessionCockpit.steady_resume h.known (h.tasks _ (List.mem_of_getElem? hi)) (fun lifecycle wt reply ht hr => ?_) hnext
        subst ht hr
        simpa only [UpToDate, hi] using hok
      refine ⟨hsteady.known, fun t ht => ?_⟩
      rcases List.mem_or_eq_of_mem_set ht with ht | ht
      · exact h.tasks t ht
      · exact hsteady.task t ht.symm
    · cases hstep

/-- **The browser never un-knows a delivery**, in every run whose drivers go on from what is stored. -/
theorem never_unknown (w : World) (hw : Reachable cockpitSystem UpToDate w) :
    w.cockpit.stored.Pairwise fun old new => old.requestId = new.requestId → Knows old new := by
  have hinit : cockpitSystem.init.Sound := by
    refine ⟨⟨List.Pairwise.nil, fun id r hr => ?_, fun r hr => absurd hr List.not_mem_nil⟩, fun t ht => absurd ht List.not_mem_nil⟩
    cases hr
  have h : w.Sound := hw.invariant hinit fun _ _ _ hs hok hst => hs.step hok hst
  exact h.known.ordered

/-! ## A driver that has not seen the delivery -/

instance (w : World) : (a : Action) → Decidable (UpToDate w a)
  | .call _ _ => .isTrue trivial
  | .resume i r now =>
    match hi : w.tasks[i]?, r with
    | some (some (.driver _ wait)), .driver reply =>
      decidable_of_iff ((w.cockpit.submissionRecord wait.record.requestId).any (fun stored => decide (Knows stored wait.record)) ∧
          (wait.record.PossiblySent → reply.unknows wait.bounds.deadlineAt now = false)) <| by
        simp only [UpToDate, hi, Option.any_eq_true, decide_eq_true_iff]
    | some (some (.driver _ _)), .authority _ | some (some (.driver _ _)), .statusBatch _
    | some (some (.driver _ _)), .withdrawal _ => .isTrue (by simp only [UpToDate, hi])
    | some (some (.authority ..)), _ | some (some (.poll _)), _ | some (some (.withdrawal _)), _ =>
      .isTrue (by simp only [UpToDate, hi])
    | some none, _ | none, _ => .isTrue (by simp only [UpToDate, hi])

def lostSubmit : List Action :=
  [.call (.submitSessionText true "hello" .background false) 0, .resume 0 (.authority (some "e1")) 0,
    .resume 0 (.driver (.receipt (.error (.ambiguous "lost")))) 1, .resume 0 (.driver .slept) 1001,
    .resume 0 (.driver (.status (.ok (some ⟨.unknown, none⟩)))) 1002, .call .pollSubmissionLifecycleOnce 1003]

def reconciledAs (state : Harness.ReconciliationState) (submissionState : SubmissionLifecycleState) : Action :=
  .resume 0 (.driver (.reconciliation (.ok ⟨state, none, "e1", some submissionState⟩))) 1005

def polledDelivered : Action := .resume 1 (.statusBatch (.ok fun _ => some ⟨.delivered, none⟩)) 1004

def deliveredWorld : World :=
  (checkedRun cockpitSystem UpToDate cockpitSystem.init
    (lostSubmit ++ [reconciledAs .accepted .delivered, polledDelivered])).get (by decide +kernel)

def unknownWorld : World :=
  (runFrom cockpitSystem cockpitSystem.init (lostSubmit ++ [polledDelivered, reconciledAs .unresolved .unknown])).get
    (by decide +kernel)

theorem never_unknown_delivered : deliveredWorld.cockpit.stored.length = 6 ∧
    deliveredWorld.cockpit.stored.Pairwise fun old new => old.requestId = new.requestId → Knows old new :=
  ⟨by decide +kernel, never_unknown deliveredWorld (steps_of_checkedRun (Option.some_get _).symm)⟩

/-- The driver's answer arrives after the poller's, and its copy goes over the delivered record. -/
theorem delivery_unknown : ¬ NeverUnknown fun _ _ => True := by
  intro h
  have hreachable : Reachable cockpitSystem (fun _ _ => True) unknownWorld :=
    steps_of_runFrom (fun _ _ _ => trivial) (Option.some_get _).symm
  have hversions := (h unknownWorld hreachable).imp fun h heq => (h heq).version
  exact absurd hversions (by decide +kernel)

end AgentsRemember.Cockpit
