import AgentsRemember.Cockpit.World

/-!
# What a turn of the driver keeps

A record knows the end that the server reported, or the evidence of a send, and
the version of its last observation. The driver's writes keep what its own copy
knows, but for a queued word and a lost generation, which it takes for more than
the evidence of a send; and they are about the message of that copy.
-/

namespace AgentsRemember.Cockpit

open Lib
open Harness (SubmissionLifecycleState)

/-! ## What a record knows -/

namespace SubmitRecord

def Definitive (r : SubmitRecord) : Prop := r.serverLifecycleState.any (· ∈ definitiveServerStates) = true

def PossiblySent (r : SubmitRecord) : Prop :=
  r.serverLifecycleState = some .dispatching ∨ r.serverLifecycleState = some .unknown

instance (r : SubmitRecord) : Decidable r.Definitive := inferInstanceAs (Decidable (_ = true))

instance (r : SubmitRecord) : Decidable r.PossiblySent := inferInstanceAs (Decidable (_ ∨ _))

end SubmitRecord

def definitivePhases : List SubmitPhase := [.accepted, .withdrawn, .rejected, .unsupported]

def unsentPhases : List SubmitPhase := [.queued, .notFound, .generationLost]

/-- `new` knows what `old` knew. -/
structure Knows (old new : SubmitRecord) : Prop where
  version : old.lifecycleObservationVersion ≤ new.lifecycleObservationVersion
  definitive : old.Definitive → new.Definitive ∧ new.phase ∈ definitivePhases
  possiblySent : old.PossiblySent → (new.PossiblySent ∨ new.Definitive) ∧ new.phase ∉ unsentPhases

instance (old new : SubmitRecord) : Decidable (Knows old new) :=
  decidable_of_iff (old.lifecycleObservationVersion ≤ new.lifecycleObservationVersion ∧
      (old.Definitive → new.Definitive ∧ new.phase ∈ definitivePhases) ∧
      (old.PossiblySent → (new.PossiblySent ∨ new.Definitive) ∧ new.phase ∉ unsentPhases))
    ⟨fun h => ⟨h.1, h.2.1, h.2.2⟩, fun h => ⟨h.version, h.definitive, h.possiblySent⟩⟩

structure Coherent (r : SubmitRecord) : Prop where
  definitive : r.Definitive → r.phase ∈ definitivePhases
  possiblySent : r.PossiblySent → r.phase ∉ unsentPhases
  lost : r.phase = .notFound ∨ r.phase = .generationLost → r.serverLifecycleState = none

theorem not_unsent_of_definitive {p : SubmitPhase} (h : p ∈ definitivePhases) : p ∉ unsentPhases := by
  revert h
  cases p <;> decide

variable {a b c r r' : SubmitRecord} {state : SubmissionLifecycleState}

theorem Knows.trans (h : Knows a b) (h' : Knows b c) : Knows a c := by
  refine ⟨h.version.trans h'.version, fun ha => h'.definitive (h.definitive ha).1, fun ha => ?_⟩
  rcases (h.possiblySent ha).1 with hb | hb
  · exact h'.possiblySent hb
  · obtain ⟨hc, hphase⟩ := h'.definitive hb
    exact ⟨.inr hc, not_unsent_of_definitive hphase⟩

theorem Coherent.same (h : Coherent r) (hphase : r'.phase = r.phase)
    (hstate : r'.serverLifecycleState = r.serverLifecycleState)
    (hversion : r'.lifecycleObservationVersion = r.lifecycleObservationVersion) : Knows r r' ∧ Coherent r' := by
  have hd : r'.Definitive ↔ r.Definitive := by rw [SubmitRecord.Definitive, SubmitRecord.Definitive, hstate]
  have hp : r'.PossiblySent ↔ r.PossiblySent := by rw [SubmitRecord.PossiblySent, SubmitRecord.PossiblySent, hstate]
  refine ⟨⟨hversion.ge, fun hr => ⟨hd.mpr hr, ?_⟩, fun hr => ⟨.inl (hp.mpr hr), ?_⟩⟩, ⟨fun hr => ?_, fun hr => ?_, ?_⟩⟩
  · exact hphase ▸ h.definitive hr
  · exact hphase ▸ h.possiblySent hr
  · exact hphase ▸ h.definitive (hd.mp hr)
  · exact hphase ▸ h.possiblySent (hp.mp hr)
  · rw [hphase, hstate]
    exact h.lost

theorem Coherent.knows (h : Coherent r) : Knows r r := (h.same rfl rfl rfl).1

theorem knows_of_phase (hend : ¬ r.Definitive) (hphase : r'.phase ∉ unsentPhases)
    (hstate : r'.serverLifecycleState = r.serverLifecycleState)
    (hversion : r'.lifecycleObservationVersion = r.lifecycleObservationVersion) : Knows r r' ∧ Coherent r' := by
  have hd : ¬ r'.Definitive := by rwa [SubmitRecord.Definitive, hstate]
  have hp : r'.PossiblySent ↔ r.PossiblySent := by rw [SubmitRecord.PossiblySent, SubmitRecord.PossiblySent, hstate]
  refine ⟨⟨hversion.ge, fun hr => absurd hr hend, fun hr => ⟨.inl (hp.mpr hr), hphase⟩⟩,
    ⟨fun hr => absurd hr hd, fun _ => hphase, fun h => absurd ?_ hphase⟩⟩
  rcases h with h | h <;> rw [h] <;> decide

theorem Coherent.not_definitive (h : Coherent r) (hphase : r.phase ∉ definitivePhases) :
    ¬ r.Definitive := fun hr => hphase (h.definitive hr)

structure Admissible (r : SubmitRecord) (state : SubmissionLifecycleState) : Prop where
  definitive : r.Definitive → state ∈ definitiveServerStates
  possiblySent : r.PossiblySent → state ≠ .queued

theorem knows_of_state (h : Admissible r state) (hphase : r'.phase = lifecyclePhase state)
    (hstate : r'.serverLifecycleState = some state)
    (hversion : r.lifecycleObservationVersion ≤ r'.lifecycleObservationVersion) : Knows r r' ∧ Coherent r' := by
  have hd : r'.Definitive ↔ state ∈ definitiveServerStates := by
    rw [SubmitRecord.Definitive, hstate, Option.any_some, decide_eq_true_iff]
  have hp : r'.PossiblySent ↔ state = .dispatching ∨ state = .unknown := by
    rw [SubmitRecord.PossiblySent, hstate, Option.some.injEq, Option.some.injEq]
  refine ⟨⟨hversion, fun hr => ?_, fun hr => ?_⟩, ⟨fun hr => ?_, fun hr => ?_, fun hr => ?_⟩⟩
  · have hin := h.definitive hr
    refine ⟨hd.mpr hin, ?_⟩
    rw [hphase]
    revert hin
    cases state <;> decide
  · have hne := h.possiblySent hr
    rw [hp, hd, hphase]
    revert hne
    cases state <;> decide
  · have hin := hd.mp hr
    rw [hphase]
    revert hin
    cases state <;> decide
  · have hin := hp.mp hr
    rw [hphase]
    revert hin
    cases state <;> decide
  · have hnot : ¬ (lifecyclePhase state = .notFound ∨ lifecyclePhase state = .generationLost) := by cases state <;> decide
    exact absurd (hphase ▸ hr) hnot

theorem project_knows (h : Admissible r state) (detail : Option String) (now : Nat) :
    Knows r (projectSubmissionLifecycle r state detail now) ∧ Coherent (projectSubmissionLifecycle r state detail now) :=
  knows_of_state h rfl rfl (Nat.le_succ _)

theorem knows_of_lost (hend : ¬ r.Definitive) (hsent : ¬ r.PossiblySent) (hstate : r'.serverLifecycleState = none)
    (hversion : r.lifecycleObservationVersion ≤ r'.lifecycleObservationVersion) : Knows r r' ∧ Coherent r' := by
  refine ⟨⟨hversion, fun h => absurd h hend, fun h => absurd h hsent⟩, ⟨fun h => ?_, fun h => ?_, fun _ => hstate⟩⟩
  · rw [SubmitRecord.Definitive, hstate] at h
    cases h
  · rw [SubmitRecord.PossiblySent, hstate] at h
    rcases h with h | h <;> cases h

/-! ## A turn of the driver -/

structure Unresolved (r : SubmitRecord) : Prop where
  coherent : Coherent r
  unended : ¬ r.Definitive

inductive DriverTurn.Extends : SubmitRecord → DriverTurn → Prop
  | wait {r : SubmitRecord} {w : DriverWait} (hw : w.record = r) (h : Unresolved r) : Extends r (.wait w)
  | final (r : SubmitRecord) : Extends r (.final r)
  | update {r r' : SubmitRecord} {rest : DriverTurn} (hid : r'.requestId = r.requestId) (h : Knows r r' ∧ Coherent r')
      (hrest : Extends r' rest) : Extends r (.update r' rest)

open DriverTurn

section
variable {r : SubmitRecord} {bounds : ReconcileBounds} {now : Nat}

theorem ended_extends (now : Nat) (h : Unresolved r) : Extends r
    (update (enterEndgame (refreshReconcileElapsed r now) now) (final (enterEndgame (refreshReconcileElapsed r now) now))) :=
  .update rfl (knows_of_phase h.unended (show SubmitPhase.endgame ∉ unsentPhases by decide) rfl rfl) (.final _)

theorem reconcileLoop_extends (h : Unresolved r) : Extends r (reconcileLoop r bounds now) := by
  unfold reconcileLoop
  split
  · exact ended_extends now h
  · exact .wait rfl h

theorem reconcileCatch_extends (error : SubmitError) (h : Unresolved r)
    (hlost : ∀ detail, error = .epochMismatch detail → ¬ r.PossiblySent) : Extends r (reconcileCatch error r bounds now) := by
  have hended := ended_extends now h
  have hkept : ∀ detail, Extends r (update { r with detail := detail, updatedAt := now }
      (reconcileLoop { r with detail := detail, updatedAt := now } bounds now)) := by
    intro detail
    have hk : Knows r { r with detail := detail, updatedAt := now } ∧ _ := h.coherent.same rfl rfl rfl
    exact .update rfl hk (reconcileLoop_extends ⟨hk.2, h.unended⟩)
  unfold reconcileCatch reconcileCatchOutcome
  cases error with
  | epochMismatch detail => exact .update rfl (knows_of_lost h.unended (hlost detail rfl) rfl le_rfl) (.final _)
  | deadline stage => exact hended
  | preDispatch detail =>
    dsimp only
    split
    · exact hended
    · exact hkept _
  | ambiguous detail =>
    dsimp only
    split
    · exact hended
    · exact hkept _
  | route failure =>
    dsimp only
    split
    · exact hended
    split
    · exact .update rfl (knows_of_phase h.unended (show SubmitPhase.routeError ∉ unsentPhases by decide) rfl rfl) (.final _)
    · exact hkept _

theorem attemptReconcile_extends (h : Unresolved r) : Extends r (attemptReconcile r bounds now) := by
  unfold attemptReconcile
  split
  · exact reconcileCatch_extends _ h (fun _ he => nomatch he)
  · exact .wait rfl h

theorem wake_extends (lifecycle : Bool) (h : Unresolved r) : Extends r (wake lifecycle r bounds now) := by
  unfold wake
  split
  · exact ended_extends now h
  have hk : Knows r (recordReconcileDelay r now) ∧ _ :=
    knows_of_phase h.unended (show SubmitPhase.reconciling ∉ unsentPhases by decide) rfl rfl
  refine .update rfl hk ?_
  cases lifecycle with
  | true => exact .wait rfl ⟨hk.2, h.unended⟩
  | false => exact attemptReconcile_extends ⟨hk.2, h.unended⟩

theorem boundedAttempt_cases {α : Type} (stage : String) (answer : Except SubmitError α) :
    (∃ a, answer = .ok a ∧ now < bounds.deadlineAt ∧ boundedAttempt stage bounds.deadlineAt now answer = .ok a) ∨
      ∃ e, boundedAttempt stage bounds.deadlineAt now answer = .error e ∧ (answer = .error e ∨ ∃ stage, e = .deadline stage) := by
  cases answer with
  | error e => exact .inr ⟨e, rfl, .inl rfl⟩
  | ok a =>
    by_cases hlate : bounds.deadlineAt ≤ now
    · exact .inr ⟨.deadline stage, if_pos hlate, .inr ⟨stage, rfl⟩⟩
    · exact .inl ⟨a, rfl, Nat.not_le.mp hlate, if_neg hlate⟩

def DriverReply.unknows (deadlineAt now : Nat) : DriverReply → Bool
  | .receipt (.error (.epochMismatch _)) | .status (.error (.epochMismatch _))
  | .reconciliation (.error (.epochMismatch _)) => true
  | .receipt (.ok answer) => decide (now < deadlineAt ∧ answer.acceptance = .queued)
  | .status (.ok (some answer)) => decide (now < deadlineAt ∧ answer.state = .queued)
  | .reconciliation (.ok answer) => decide (now < deadlineAt ∧ answer.submissionState = some .queued)
  | _ => false

theorem admissible_of_unended {state : SubmissionLifecycleState} (h : Unresolved r)
    (hsent : r.PossiblySent → state ≠ .queued) : Admissible r state := ⟨fun hr => absurd hr h.unended, hsent⟩

theorem applyLifecycleReconcile_extends {answer : Except SubmitError (Option SubmissionStatusWire)} (h : Unresolved r)
    (hanswer : r.PossiblySent → (DriverReply.status answer).unknows bounds.deadlineAt now = false) :
    Extends r (applyLifecycleReconcile r bounds answer now) := by
  unfold applyLifecycleReconcile
  rcases boundedAttempt_cases "reconcile" answer with ⟨lookup, rfl, htime, hb⟩ | ⟨e, hb, he⟩
  · rw [hb]
    cases lookup with
    | none => exact attemptReconcile_extends h
    | some submission =>
      have hsent : r.PossiblySent → submission.state ≠ .queued := by
        intro hr hq
        have := hanswer hr
        simp [DriverReply.unknows, htime, hq] at this
      have hk := project_knows (admissible_of_unended h hsent) submission.detail now
      refine .update rfl hk ?_
      split
      · exact .final _
      rename_i hphase
      refine attemptReconcile_extends ⟨hk.2, hk.2.not_definitive ?_⟩
      rw [Decidable.not_not.mp hphase]
      decide
  · rw [hb]
    refine reconcileCatch_extends e h fun detail hmismatch hr => ?_
    subst hmismatch
    rcases he with rfl | ⟨_, hd⟩
    · cases hanswer hr
    · cases hd

theorem reduceReconciliation_knows {result : ReconciliationResultWire} (h : Unresolved r)
    (hsent : r.PossiblySent → result.submissionState ≠ some .queued) :
    Knows r (reduceReconciliation r result now) ∧ Coherent (reduceReconciliation r result now) := by
  unfold reduceReconciliation
  dsimp only
  split
  · rename_i state hstate
    obtain ⟨hstate, -⟩ := Option.filter_eq_some_iff.mp hstate
    exact knows_of_state (admissible_of_unended h fun hr hq => hsent hr (hq ▸ hstate)) rfl rfl (Nat.le_succ _)
  split
  · exact knows_of_phase h.unended (show SubmitPhase.accepted ∉ unsentPhases by decide) rfl rfl
  · exact knows_of_phase h.unended (show SubmitPhase.rejected ∉ unsentPhases by decide) rfl rfl
  · exact knows_of_phase h.unended (show SubmitPhase.unsupported ∉ unsentPhases by decide) rfl rfl
  · exact knows_of_phase h.unended (show SubmitPhase.reconciling ∉ unsentPhases by decide) rfl rfl

theorem reduceReconciliation_id (result : ReconciliationResultWire) :
    (reduceReconciliation r result now).requestId = r.requestId := by
  unfold reduceReconciliation
  dsimp only
  split
  · rfl
  · split <;> rfl

theorem reconciled_extends {answer : Except SubmitError ReconciliationResultWire} (h : Unresolved r)
    (hanswer : r.PossiblySent → (DriverReply.reconciliation answer).unknows bounds.deadlineAt now = false) :
    Extends r (reconciled r bounds answer now) := by
  unfold reconciled
  rcases boundedAttempt_cases "reconcile" answer with ⟨result, rfl, htime, hb⟩ | ⟨e, hb, he⟩
  · rw [hb]
    have hsent : r.PossiblySent → result.submissionState ≠ some .queued := by
      intro hr hq
      have := hanswer hr
      simp [DriverReply.unknows, htime, hq] at this
    have hk : Knows r (reduceReconciliation r result now) ∧ _ := reduceReconciliation_knows h hsent
    refine .update (reduceReconciliation_id result) hk ?_
    split
    · exact .final _
    rename_i hphase
    refine reconcileLoop_extends ⟨hk.2, hk.2.not_definitive ?_⟩
    rw [Decidable.not_not.mp hphase]
    decide
  · rw [hb]
    refine reconcileCatch_extends e h fun detail hmismatch hr => ?_
    subst hmismatch
    rcases he with rfl | ⟨_, hd⟩
    · cases hanswer hr
    · cases hd

theorem reconcileWindow_extends (h : Unresolved r) : Extends r (reconcileWindow r bounds now) := by
  have hk : Knows r (enterReconcileWindow r now bounds.windowStartedAt) ∧ _ :=
    knows_of_phase h.unended (show SubmitPhase.reconciling ∉ unsentPhases by decide) rfl rfl
  exact .update rfl hk (reconcileLoop_extends ⟨hk.2, h.unended⟩)

variable {r' : SubmitRecord}

theorem submitted_extends (hid : r'.requestId = r.requestId) (hk : Knows r r' ∧ Coherent r') :
    Extends r (submitted r' bounds now) := by
  refine .update hid hk ?_
  split
  · rename_i hphase
    refine reconcileWindow_extends ⟨hk.2, hk.2.not_definitive ?_⟩
    rw [hphase]
    decide
  · exact .final _

theorem submitCatchOutcome_knows {error : SubmitError} {retries : Nat} {caught : SubmitRecord} (h : Unresolved r)
    (hlost : ∀ detail, error = .epochMismatch detail → ¬ r.PossiblySent)
    (hc : submitCatchOutcome error r retries now = some caught) :
    caught.requestId = r.requestId ∧ Knows r caught ∧ Coherent caught := by
  have hfailed : ∀ failure, Knows r (failRoute r failure now) ∧ Coherent (failRoute r failure now) :=
    fun _ => knows_of_phase h.unended (show SubmitPhase.routeError ∉ unsentPhases by decide) rfl rfl
  have hambiguous : SubmitPhase.ambiguous ∉ unsentPhases := by decide
  unfold submitCatchOutcome at hc
  cases error with
  | epochMismatch detail =>
    cases hc
    exact ⟨rfl, knows_of_lost h.unended (hlost detail rfl) rfl le_rfl⟩
  | preDispatch detail =>
    dsimp only at hc
    split at hc
    · cases hc
    · cases hc
      exact ⟨rfl, hfailed _⟩
  | route failure =>
    cases hc
    exact ⟨rfl, hfailed _⟩
  | deadline stage =>
    cases hc
    exact ⟨rfl, knows_of_phase h.unended hambiguous rfl rfl⟩
  | ambiguous detail =>
    cases hc
    exact ⟨rfl, knows_of_phase h.unended hambiguous rfl rfl⟩

theorem retrySubmit_extends (retries : Nat) (h : Unresolved r) : Extends r (retrySubmit r bounds retries now) := by
  unfold retrySubmit
  split
  · split
    · rename_i caught hc
      have hlost : ∀ detail, SubmitError.deadline "submit" = .epochMismatch detail → ¬ r.PossiblySent := nofun
      obtain ⟨hid, hk⟩ := submitCatchOutcome_knows h hlost hc
      exact submitted_extends hid hk
    · exact .final _
  · exact .wait rfl h

theorem reduceReceipt_knows {receipt : SubmissionReceiptWire} (h : Unresolved r)
    (hsent : r.PossiblySent → receipt.acceptance ≠ .queued) :
    (reduceReceipt r receipt now).requestId = r.requestId ∧
      Knows r (reduceReceipt r receipt now) ∧ Coherent (reduceReceipt r receipt now) := by
  have hstated : ∀ state, state ≠ SubmissionLifecycleState.queued → Admissible r state :=
    fun _ hne => admissible_of_unended h fun _ => hne
  unfold reduceReceipt
  dsimp only
  split
  · exact ⟨rfl, knows_of_state (hstated .delivered nofun) rfl rfl le_rfl⟩
  · rename_i hq
    exact ⟨rfl, knows_of_lost h.unended (fun hr => hsent hr hq) rfl le_rfl⟩
  · exact ⟨rfl, knows_of_state (hstated .rejected nofun) rfl rfl le_rfl⟩
  · exact ⟨rfl, knows_of_state (hstated .unsupported nofun) rfl rfl le_rfl⟩
  · exact ⟨rfl, knows_of_state (hstated .unknown nofun) rfl rfl le_rfl⟩

theorem submitAnswered_extends {answer : Except SubmitError SubmissionReceiptWire} (retries : Nat) (h : Unresolved r)
    (hanswer : r.PossiblySent → (DriverReply.receipt answer).unknows bounds.deadlineAt now = false) :
    Extends r (submitAnswered r bounds retries answer now) := by
  unfold submitAnswered
  rcases boundedAttempt_cases "submit" answer with ⟨receipt, rfl, htime, hb⟩ | ⟨e, hb, he⟩
  · rw [hb]
    have hsent : r.PossiblySent → receipt.acceptance ≠ .queued := by
      intro hr hq
      have := hanswer hr
      simp [DriverReply.unknows, htime, hq] at this
    obtain ⟨hid, hk⟩ := reduceReceipt_knows h hsent
    exact submitted_extends hid hk
  rw [hb]
  dsimp only
  split
  · rename_i caught hc
    have hlost : ∀ detail, e = .epochMismatch detail → ¬ r.PossiblySent := by
      rintro detail rfl hr
      rcases he with rfl | ⟨_, hd⟩
      · cases hanswer hr
      · cases hd
    obtain ⟨hid, hk⟩ := submitCatchOutcome_knows h hlost hc
    exact submitted_extends hid hk
  · exact retrySubmit_extends _ h

theorem executeReliableSubmit_extends (hid : r'.requestId = r.requestId) (hk : Knows r r' ∧ Coherent r')
    (hend : ¬ r'.Definitive) : Extends r (executeReliableSubmit r' now) :=
  .update hid hk (.wait rfl ⟨hk.2, hend⟩)

theorem resume_extends {w : DriverWait} {reply : DriverReply} {turn : DriverTurn} {lifecycle : Bool}
    (h : Unresolved w.record) (hanswer : w.record.PossiblySent → reply.unknows w.bounds.deadlineAt now = false)
    (hturn : w.resume lifecycle now reply = some turn) : Extends w.record turn := by
  cases w <;> cases reply <;> simp only [DriverWait.resume, reduceCtorEq, Option.some.injEq] at hturn <;> subst hturn
  · exact submitAnswered_extends _ h hanswer
  · exact wake_extends lifecycle h
  · exact applyLifecycleReconcile_extends h hanswer
  · exact reconciled_extends h hanswer

end

/-! ## What a turn is about -/

structure Same (r n : SubmitRecord) : Prop where
  id : n.requestId = r.requestId
  text : n.text = r.text
  restored : n.restoredAt = r.restoredAt
  source : n.source = r.source

theorem Same.trans (h : Same a b) (h' : Same b c) : Same a c :=
  ⟨h'.id.trans h.id, h'.text.trans h.text, h'.restored.trans h.restored, h'.source.trans h.source⟩

inductive DriverTurn.About : SubmitRecord → DriverTurn → Prop
  | wait {r : SubmitRecord} {w : DriverWait} (h : Same r w.record) : About r (.wait w)
  | final {r n : SubmitRecord} (h : Same r n) : About r (.final n)
  | update {r n : SubmitRecord} {rest : DriverTurn} (h : Same r n) (hrest : About r rest) : About r (.update n rest)

variable {r n : SubmitRecord} {bounds : ReconcileBounds} {now : Nat}

theorem reconcileLoop_about (h : Same r n) : About r (reconcileLoop n bounds now) := by
  have hended : Same r (enterEndgame (refreshReconcileElapsed n now) now) := h.trans ⟨rfl, rfl, rfl, rfl⟩
  unfold reconcileLoop
  split
  · exact .update hended (.final hended)
  · exact .wait h

theorem reconcileCatchOutcome_same (error : SubmitError) (h : Same r n) (deadlineAt now : Nat) :
    Same r (reconcileCatchOutcome error n deadlineAt now).1 := by
  unfold reconcileCatchOutcome
  refine h.trans ?_
  cases error <;> dsimp only <;> repeat' split
  all_goals exact ⟨rfl, rfl, rfl, rfl⟩

theorem reconcileCatch_about (error : SubmitError) (h : Same r n) : About r (reconcileCatch error n bounds now) := by
  have houtcome := reconcileCatchOutcome_same error h bounds.deadlineAt now
  refine .update houtcome ?_
  split
  · exact .final houtcome
  · exact reconcileLoop_about houtcome

theorem attemptReconcile_about (h : Same r n) : About r (attemptReconcile n bounds now) := by
  unfold attemptReconcile
  split
  · exact reconcileCatch_about _ h
  · exact .wait h

theorem wake_about (lifecycle : Bool) (h : Same r n) : About r (wake lifecycle n bounds now) := by
  have hended : Same r (enterEndgame (refreshReconcileElapsed n now) now) := h.trans ⟨rfl, rfl, rfl, rfl⟩
  have hdelayed : Same r (recordReconcileDelay n now) := h.trans ⟨rfl, rfl, rfl, rfl⟩
  unfold wake
  split
  · exact .update hended (.final hended)
  refine .update hdelayed ?_
  cases lifecycle with
  | true => exact .wait hdelayed
  | false => exact attemptReconcile_about hdelayed

theorem applyLifecycleReconcile_about (answer : Except SubmitError (Option SubmissionStatusWire)) (h : Same r n) :
    About r (applyLifecycleReconcile n bounds answer now) := by
  unfold applyLifecycleReconcile
  split
  · exact reconcileCatch_about _ h
  · exact attemptReconcile_about h
  rename_i submission _
  have hprojected : Same r (projectSubmissionLifecycle n submission.state submission.detail now) :=
    h.trans ⟨rfl, rfl, rfl, rfl⟩
  refine .update hprojected ?_
  split
  · exact .final hprojected
  · exact attemptReconcile_about hprojected

theorem reduceReconciliation_same (result : ReconciliationResultWire) : Same n (reduceReconciliation n result now) := by
  unfold reduceReconciliation
  dsimp only
  split
  · exact ⟨rfl, rfl, rfl, rfl⟩
  · split <;> exact ⟨rfl, rfl, rfl, rfl⟩

theorem reconciled_about (answer : Except SubmitError ReconciliationResultWire) (h : Same r n) :
    About r (reconciled n bounds answer now) := by
  unfold reconciled
  split
  · exact reconcileCatch_about _ h
  rename_i result _
  have hreduced : Same r (reduceReconciliation n result now) := h.trans (reduceReconciliation_same result)
  refine .update hreduced ?_
  split
  · exact .final hreduced
  · exact reconcileLoop_about hreduced

theorem reconcileWindow_about (h : Same r n) : About r (reconcileWindow n bounds now) := by
  have hentered : Same r (enterReconcileWindow n now bounds.windowStartedAt) := h.trans ⟨rfl, rfl, rfl, rfl⟩
  exact .update hentered (reconcileLoop_about hentered)

theorem submitted_about (h : Same r n) : About r (submitted n bounds now) := by
  refine .update h ?_
  split
  · exact reconcileWindow_about h
  · exact .final h

theorem submitCatchOutcome_same {error : SubmitError} {retries : Nat} {caught : SubmitRecord} (h : Same r n)
    (hc : submitCatchOutcome error n retries now = some caught) : Same r caught := by
  unfold submitCatchOutcome at hc
  refine h.trans ?_
  cases error with
  | preDispatch detail =>
    dsimp only at hc
    split at hc
    · cases hc
    · cases hc
      exact ⟨rfl, rfl, rfl, rfl⟩
  | epochMismatch detail | route failure | deadline stage | ambiguous detail =>
    cases hc
    exact ⟨rfl, rfl, rfl, rfl⟩

theorem retrySubmit_about (retries : Nat) (h : Same r n) : About r (retrySubmit n bounds retries now) := by
  unfold retrySubmit
  split
  · split
    · exact submitted_about (submitCatchOutcome_same h ‹_›)
    · exact .final h
  · exact .wait h

theorem submitAnswered_about (retries : Nat) (answer : Except SubmitError SubmissionReceiptWire) (h : Same r n) :
    About r (submitAnswered n bounds retries answer now) := by
  unfold submitAnswered
  split
  · rename_i receipt _
    refine submitted_about (h.trans ?_)
    unfold reduceReceipt
    dsimp only
    split <;> exact ⟨rfl, rfl, rfl, rfl⟩
  split
  · exact submitted_about (submitCatchOutcome_same h ‹_›)
  · exact retrySubmit_about _ h

theorem resume_about {w : DriverWait} {reply : DriverReply} {turn : DriverTurn} {lifecycle : Bool}
    (hturn : w.resume lifecycle now reply = some turn) : About w.record turn := by
  have hself : Same w.record w.record := ⟨rfl, rfl, rfl, rfl⟩
  cases w <;> cases reply <;> simp only [DriverWait.resume, reduceCtorEq, Option.some.injEq] at hturn <;> subst hturn
  · exact submitAnswered_about _ _ hself
  · exact wake_about lifecycle hself
  · exact applyLifecycleReconcile_about _ hself
  · exact reconciled_about _ hself

end AgentsRemember.Cockpit
