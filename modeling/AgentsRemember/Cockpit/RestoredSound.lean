import AgentsRemember.Cockpit.WithdrawnSound

/-!
# Every run of a session

The withdrawal under way is the only one, and whatever runs aside keeps its
slot; so its answers find what they need, or the mark that tells them.
-/

namespace AgentsRemember.Cockpit

open Lib CockpitEvent
open Harness (SubmissionLifecycleState)

/-! ## Every run -/

/-- The text of a withdrawn message comes back once, and is not lost. -/
structure RestoredOnce (s : PerSessionCockpit) : Prop where
  -- Once it went into the draft, or was dismissed, nothing brings it back.
  settled : ∀ id text, NeverAfter (Settles id) (Brings id text) s.log
  answered : ∀ id text a e b, s.log = a ++ e :: b → Brings id text e → .withdrawn id true ∈ a
  revision : ∀ id text revision, .replaced id text revision ∈ s.log → .requested id revision ∈ s.log
  accounted : ∀ id, .withdrawn id true ∈ s.log → ¬ Unsettled s.log id ∨ InRecovery s.withdrawal id
  exactly : ∀ id text, ∀ e ∈ s.log, Brings id text e → Said s.stored id text
  held : ∀ id text now, s.withdrawal = some (.recovery id text now) → Said s.stored id text
  oneText : ∀ r ∈ s.stored, ∀ r' ∈ s.stored, r.requestId = r'.requestId → r.text = r'.text

def AlwaysRestoredOnce (ok : World → Action → Prop) : Prop := ∀ w, Reachable cockpitSystem ok w → RestoredOnce w.cockpit

/-- A withdrawn answer of the withdrawal's own finds the mark that its text needs, and no driver of a composer message hears
that it is queued after it was withdrawn. -/
def Mindful (w : World) : Action → Prop
  | .call _ _ => True
  | .resume i r _ =>
    match w.tasks[i]?, r with
    | some (some (.driver _ d)), .driver reply =>
      d.record.source = .composer → reply.saysQueued = true → .withdrawn d.record.requestId true ∉ w.cockpit.log
    | some (some (.withdrawal v)), .withdrawal reply => Answerable w.cockpit v reply
    | _, _ => True

def Waiting.Faithful (s : PerSessionCockpit) : Waiting → Prop
  | .driver _ d => s.Faithful d.record
  | .withdrawal v => s.Flowing v.target
  | _ => True

structure AsideStep (s : PerSessionCockpit) (next : PerSessionCockpit × Option Waiting) : Prop where
  aside : PerSessionCockpit.Aside s next.1
  task : ∀ t, next.2 = some t → t.Faithful next.1 ∧ ∀ v, t ≠ .withdrawal v

theorem Waiting.Faithful.aside {s s' : PerSessionCockpit} {t : Waiting} (h : t.Faithful s)
    (hs : PerSessionCockpit.Aside s s') : t.Faithful s' := by
  cases t with
  | driver lifecycle d => exact PerSessionCockpit.Faithful.mono h hs.grows
  | withdrawal v => exact PerSessionCockpit.Flowing.aside h hs
  | authority _ _ _ _ => exact trivial
  | poll p => exact trivial

namespace PerSessionCockpit

variable {s : PerSessionCockpit} {r : SubmitRecord} {now : Nat}

variable {s' : PerSessionCockpit}

theorem asideStep_done (h : Aside s s') : AsideStep s (s', none) := ⟨h, fun _ ht => nomatch ht⟩

theorem asideStep_poll (h : Aside s s') (p : Option PollWait) : AsideStep s (s', p.map .poll) := by
  refine ⟨h, fun t ht => ?_⟩
  obtain ⟨p, -, rfl⟩ := Option.map_eq_some_iff.mp ht
  exact ⟨trivial, nofun⟩

theorem asideStep_driveOn {turn : DriverTurn} (lifecycle : Bool) (h : s.Preserved) (hr : s.Faithful r) (hturn : turn.About r)
    (hqueue : r.source = .composer → turn.Queues → .withdrawn r.requestId true ∉ s.log) :
    AsideStep s (s.driveOn lifecycle turn) := by
  have haside := aside_drive h hr hturn hqueue
  refine ⟨haside, fun t ht => ?_⟩
  cases hnext : turn.next with
  | final n => simp [driveOn, hnext, DriverNext.waiting] at ht
  | wait w =>
    simp only [driveOn, hnext, DriverNext.waiting, Option.some.injEq] at ht
    subst ht
    exact ⟨(hr.mono haside.grows).of_same (about_wait hturn hnext), nofun⟩

theorem asideStep_startSubmit (h : s.Preserved) (text : String) (source : SubmitSource) (clear : Bool) (revision : Nat)
    (epoch : String) : AsideStep s (s.startSubmit text source clear revision epoch now) := by
  have hmore : { s with issued := s.issued + 1 }.Texts :=
    ⟨h.texts.one, fun r hr => (h.texts.issued r hr).trans (Nat.lt_succ_self _), h.texts.marked, h.texts.history, h.texts.queue,
      h.texts.pending, h.texts.recovery, h.texts.brought⟩
  have hnew : ∀ {r : SubmitRecord}, r.requestId = s.issued → r.restoredAt = none →
      Aside s ({ s with issued := s.issued + 1 }.upsertSubmitRecord r) := by
    intro r hid hmark
    refine ⟨⟨h.placed, hmore.upsert_of (fun r' hr' heq => ?_) ?_ fun hm => ?_⟩,
      ⟨fun _ hr => List.mem_append_left _ hr, fun _ he => he, rfl⟩, fun _ _ ht => ht⟩
    · exact absurd (h.texts.issued r' hr') (by rw [heq, hid]; exact Nat.lt_irrefl _)
    · exact hid ▸ Nat.lt_succ_self _
    · rw [hmark] at hm
      cases hm
  refine ⟨hnew rfl rfl, fun t ht => ?_⟩
  cases ht
  exact ⟨faithful_of_stored (hnew rfl rfl).preserved (List.mem_append_right _ (List.mem_singleton_self _)), nofun⟩

theorem asideStep_keepWaiting (h : s.Preserved) (lifecycle : Bool) (id : RequestId) :
    AsideStep s (s.keepWaiting lifecycle id now) := by
  unfold keepWaiting
  split
  · exact asideStep_done (.refl h)
  rename_i record hrecord
  obtain ⟨hrecord, -⟩ := Option.filter_eq_some_iff.mp hrecord
  have hr := faithful_of_stored h (h.texts.history id record hrecord).1
  refine asideStep_driveOn lifecycle h hr (reconcileWindow_about ⟨rfl, rfl, rfl, rfl⟩) fun _ hqueues =>
    absurd hqueues reconcileWindow_not_queues

theorem asideStep_retryRoute (h : s.Preserved) (lifecycle : Bool) (id : RequestId) (text : String) :
    AsideStep s (s.retryRoute lifecycle id text now) := by
  unfold retryRoute
  split
  · exact asideStep_done (.refl h)
  rename_i record hrecord
  obtain ⟨hrecord, -⟩ := Option.filter_eq_some_iff.mp hrecord
  have hr := faithful_of_stored h (h.texts.history id record hrecord).1
  refine asideStep_driveOn lifecycle h hr (.update ?_ (.wait ?_)) fun _ hqueues =>
    absurd hqueues (not_queues_wait _)
  · exact ⟨rfl, rfl, rfl, rfl⟩
  · exact ⟨rfl, rfl, rfl, rfl⟩

theorem aside_releaseSubmit (h : s.Preserved) (id : RequestId) : Aside s (s.releaseSubmit id now) := by
  unfold releaseSubmit
  cases hrecord : (s.submissionRecord id).filter fun record => record.phase = .endgame with
  | none => exact .refl h
  | some record =>
    obtain ⟨hrecord, -⟩ := Option.filter_eq_some_iff.mp hrecord
    have hr := faithful_of_stored h (h.texts.history id record hrecord).1
    exact aside_upsert h (hr.of_same ⟨rfl, rfl, rfl, rfl⟩)

theorem asideStep_run (h : s.Preserved) (now : Nat) {c : Call} (hc : c ≠ .withdrawLastQueuedSubmission) :
    AsideStep s (s.run now c) := by
  have hsubmit : ∀ ready text source clear revision, AsideStep s (s.submitText ready text source clear revision) := by
    intro ready text source clear revision
    unfold submitText
    split
    · exact asideStep_done (.refl h)
    refine ⟨.refl h, fun t ht => ?_⟩
    cases ht
    exact ⟨trivial, nofun⟩
  cases c with
  | submitSessionText ready text source clear => exact hsubmit _ _ _ _ _
  | submitSessionDraft ready => exact hsubmit _ _ _ _ _
  | keepWaitingForSubmit lifecycle id => exact asideStep_keepWaiting h lifecycle id
  | releaseSubmitDraft id => exact asideStep_done (aside_releaseSubmit h id)
  | retryRouteFailure lifecycle id text => exact asideStep_retryRoute h lifecycle id text
  | pollSubmissionLifecycleOnce => exact asideStep_poll (aside_startPoll h) _
  | withdrawLastQueuedSubmission => exact absurd rfl hc
  | restoreWithdrawnRecovery id revision => exact asideStep_done (aside_restoreWithdrawnRecovery h revision)
  | dismissWithdrawnRecovery id revision => exact asideStep_done (aside_dismissWithdrawnRecovery h revision)
  | setComposerDraft draft => exact asideStep_done (aside_same h (sameTexts_setComposerDraft _))
  | clearComposerDraftIfRevision revision => exact asideStep_done (aside_same h (sameTexts_clearComposerDraft _))

/-- What the withdrawal's call leaves. -/
inductive Started (s : PerSessionCockpit) : PerSessionCockpit × Option Waiting → Prop
  | refused : Started s (s, none)
  | started {s' : PerSessionCockpit} {v : WithdrawalWait} (hfree : s.withdrawalInFlight = false) (h : s'.Preserved)
      (hstored : s'.stored = s.stored) (hlog : ∀ e ∈ s.log, e ∈ s'.log) (ht : s'.Flowing v.target) :
      Started s (s', some (.withdrawal v))

theorem started_withdrawLast (h : s.Preserved) (now : Nat) : Started s (s.withdrawLast now) := by
  unfold withdrawLast withdrawLastQueued withdrawalTargetFor
  by_cases hflight : s.withdrawalInFlight = true
  · rw [if_pos hflight]
    exact .refused
  rw [if_neg hflight]
  have hfree : s.withdrawalInFlight = false := Bool.eq_false_iff.mpr hflight
  cases hslot : s.withdrawal with
  | some w =>
    cases w with
    | recovery id text since => exact .refused
    | pending p =>
      have hready := ready_of_pending h hslot
      exact .started hfree (h.inFlight true) rfl (fun _ he => he)
        ⟨rfl, .inr (.inl hslot), hready.said, hready.requested⟩
  | none =>
    dsimp only
    cases hlast : s.queuedEntryTarget now with
    | none => exact .refused
    | some p =>
      obtain ⟨q, hq, rfl⟩ := Option.map_eq_some_iff.mp hlast
      obtain ⟨hsaid, hwithdrawn⟩ := h.texts.queue q (List.mem_of_getLast? hq)
      have hunsettled : Unsettled s.log q.requestId := by
        by_contra hnot
        exact hwithdrawn (h.placed.logged.answered q.requestId hnot)
      have hplaced : Placed s.log none := hslot ▸ h.placed
      have hset := (h.texts.setWithdrawal (w := some (.pending ⟨q.requestId, q.text, q.expectedBridgeEpoch,
        s.composer.draftRevision, now⟩)) (fun p hp => by cases hp; exact hsaid) fun _ _ _ hw => by cases hw).note
        (e := .requested q.requestId s.composer.draftRevision) (fun _ _ hb => hb.elim) fun _ _ => nofun
      exact .started hfree (Preserved.inFlight ⟨hplaced.request (p := ⟨q.requestId, q.text, q.expectedBridgeEpoch,
        s.composer.draftRevision, now⟩) hunsettled, hset⟩ true) rfl
        (fun _ he => List.mem_append_left _ he)
        ⟨rfl, .inr (.inl rfl), hsaid, List.mem_append_right _ (List.mem_singleton_self _)⟩

theorem asideStep_resume (h : s.Preserved) {t : Waiting} {r : Reply} {next : PerSessionCockpit × Option Waiting}
    (ht : t.Faithful s) (hw : ∀ v, t ≠ .withdrawal v)
    (hdriver : ∀ lifecycle d reply, t = .driver lifecycle d → r = .driver reply →
      d.record.source = .composer → reply.saysQueued = true → .withdrawn d.record.requestId true ∉ s.log)
    (hnext : s.resume now t r = some next) : AsideStep s next := by
  unfold resume at hnext
  split at hnext
  · cases hnext
    exact asideStep_startSubmit h _ _ _ _ _
  · cases hnext
    exact asideStep_done (.refl h)
  · rename_i lifecycle d reply
    split at hnext
    · obtain ⟨turn, hturn, rfl⟩ := Option.map_eq_some_iff.mp hnext
      exact asideStep_driveOn lifecycle h ht (resume_about hturn) fun hs hqueues =>
        hdriver lifecycle d reply rfl rfl hs (resume_queues hturn hqueues)
    · cases hnext
  · cases hnext
    exact asideStep_poll (aside_pollAnswered h _ _) _
  · exact absurd rfl (hw _)
  · cases hnext

end PerSessionCockpit

structure World.Preserved (w : World) : Prop where
  cockpit : w.cockpit.Preserved
  tasks : ∀ (i : Nat) (t : Waiting), w.tasks[i]? = some (some t) → t.Faithful w.cockpit
  -- One withdrawal is under way.
  one : ∀ (i j : Nat) (v v' : WithdrawalWait), w.tasks[i]? = some (some (.withdrawal v)) → w.tasks[j]? = some (some (.withdrawal v')) → i = j

namespace World

variable {w v : World}

variable {now : Nat}

theorem Preserved.call (h : w.Preserved) {c : Call} (hstep : w.step (.call c now) = some v) : v.Preserved := by
  cases hstep
  by_cases hc : c = .withdrawLastQueuedSubmission
  · subst hc
    have hstarted := PerSessionCockpit.started_withdrawLast h.cockpit now
    simp only [PerSessionCockpit.run]
    generalize w.cockpit.withdrawLast now = next at hstarted
    cases hstarted with
    | refused =>
      refine ⟨h.cockpit, fun i t hi => ?_, fun i j v v' hi hj => ?_⟩
      · rcases getElem?_concat hi with hi | ⟨-, hi⟩
        · exact h.tasks i t hi
        · cases hi
      rcases getElem?_concat hi with hi | ⟨-, hi⟩ <;> rcases getElem?_concat hj with hj | ⟨-, hj⟩
      · exact h.one i j v v' hi hj
      all_goals first | cases hi | cases hj
    | @started s' v hfree hs hstored hlog ht =>
      -- While the session is free no withdrawal is under way.
      have hnone : ∀ {i : Nat} {v' : WithdrawalWait}, w.tasks[i]? ≠ some (some (.withdrawal v')) := by
        intro i v' hi
        have hflight := (h.tasks i _ hi).flight
        rw [hfree] at hflight
        cases hflight
      refine ⟨hs, fun i t hi => ?_, fun i j v v' hi hj => ?_⟩
      · rcases getElem?_concat hi with hi | ⟨-, hi⟩
        · have hold := h.tasks i t hi
          cases t with
          | driver lifecycle d =>
            refine ⟨hold.said.mono fun r hr => hstored ▸ hr, fun hm => ?_⟩
            obtain ⟨e, he, hres⟩ := hold.marked hm
            exact ⟨e, hlog e he, hres⟩
          | withdrawal v => exact absurd hi hnone
          | authority _ _ _ _ => exact trivial
          | poll p => exact trivial
        · cases hi
          exact ht
      · rcases getElem?_concat hi with hi | ⟨hi, -⟩ <;> rcases getElem?_concat hj with hj | ⟨hj, -⟩
        · exact absurd hi hnone
        · exact absurd hi hnone
        · exact absurd hj hnone
        · rw [hi, hj]
  · have hstep := PerSessionCockpit.asideStep_run h.cockpit now hc
    refine ⟨hstep.aside.preserved, fun i t hi => ?_, fun i j v v' hi hj => ?_⟩
    · rcases getElem?_concat hi with hi | ⟨-, hi⟩
      · exact (h.tasks i t hi).aside hstep.aside
      · exact (hstep.task t hi).1
    rcases getElem?_concat hi with hi | ⟨-, hi⟩ <;> rcases getElem?_concat hj with hj | ⟨-, hj⟩
    · exact h.one i j v v' hi hj
    · exact absurd rfl ((hstep.task _ hj).2 v')
    · exact absurd rfl ((hstep.task _ hi).2 v)
    · exact absurd rfl ((hstep.task _ hi).2 v)

theorem Preserved.withdrawalStep (h : w.Preserved) {i : Nat} {u : WithdrawalWait} {r : WithdrawalReply}
    (hi : w.tasks[i]? = some (some (.withdrawal u))) (hok : Answerable w.cockpit u r)
    {next : PerSessionCockpit × Option WithdrawalWait} (hnext : w.cockpit.withdrawalAnswered now u r = some next) :
    (World.mk (next.1.afterWithdrawal next.2).1 (w.tasks.set i (next.1.afterWithdrawal next.2).2)).Preserved := by
  have ht : w.cockpit.Flowing u.target := h.tasks i _ hi
  have honward := PerSessionCockpit.onward_answered h.cockpit ht hok hnext
  obtain ⟨s', goesOn⟩ := next
  -- No other withdrawal is under way.
  have hother : ∀ {j : Nat} {v : WithdrawalWait}, j ≠ i → w.tasks[j]? ≠ some (some (.withdrawal v)) :=
    fun hne hj => hne (h.one _ _ _ _ hj hi)
  cases goesOn with
  | some u' =>
    obtain ⟨rfl, htarget⟩ := honward.goesOn u' rfl
    refine ⟨honward.preserved, fun j t hj => ?_, fun j k v v' hj hk => ?_⟩
    · rcases getElem?_replaced hj with ⟨-, hj⟩ | ⟨-, hj⟩
      · exact h.tasks j t hj
      cases hj
      show w.cockpit.Flowing u'.target
      rw [htarget]
      exact ht
    rcases getElem?_replaced hj with ⟨hne, hj⟩ | ⟨hj, -⟩ <;> rcases getElem?_replaced hk with ⟨hne', hk⟩ | ⟨hk, -⟩
    · exact absurd hj (hother hne)
    · exact absurd hj (hother hne)
    · exact absurd hk (hother hne')
    · rw [hj, hk]
  | none =>
    refine ⟨honward.preserved.inFlight false, fun j t hj => ?_, fun j k v v' hj hk => ?_⟩
    · rcases getElem?_replaced hj with ⟨hne, hj⟩ | ⟨-, hj⟩
      · have hold := h.tasks j t hj
        cases t with
        | driver lifecycle d =>
          have hold := PerSessionCockpit.Faithful.mono hold honward.grows
          exact ⟨hold.said, hold.marked⟩
        | withdrawal v => exact absurd hj (hother hne)
        | authority _ _ _ _ => exact trivial
        | poll p => exact trivial
      · cases hj
    · rcases getElem?_replaced hj with ⟨hne, hj⟩ | ⟨-, hj⟩
      · exact absurd hj (hother hne)
      · cases hj

theorem Preserved.step (h : w.Preserved) {a : Action} (hok : Mindful w a) (hstep : w.step a = some v) : v.Preserved := by
  cases a with
  | call c now => exact h.call hstep
  | resume i r now =>
    simp only [World.step] at hstep
    split at hstep
    · rename_i t hi
      obtain ⟨next, hnext, rfl⟩ := Option.map_eq_some_iff.mp hstep
      by_cases hw : ∃ u, t = .withdrawal u
      · obtain ⟨u, rfl⟩ := hw
        cases r with
        | withdrawal reply =>
          obtain ⟨left, hleft, rfl⟩ := Option.map_eq_some_iff.mp hnext
          refine h.withdrawalStep hi ?_ hleft
          simpa only [Mindful, hi] using hok
        | authority epoch => cases hnext
        | driver reply => cases hnext
        | statusBatch answer => cases hnext
      have hstep := PerSessionCockpit.asideStep_resume h.cockpit (h.tasks i t hi) (fun u hu => hw ⟨u, hu⟩)
        (fun lifecycle d reply ht hr => by subst ht hr; simpa only [Mindful, hi] using hok) hnext
      refine ⟨hstep.aside.preserved, fun j t' hj => ?_, fun j k u u' hj hk => ?_⟩
      · rcases getElem?_replaced hj with ⟨-, hj⟩ | ⟨-, hj⟩
        · exact (h.tasks j t' hj).aside hstep.aside
        · exact (hstep.task t' hj).1
      rcases getElem?_replaced hj with ⟨-, hj⟩ | ⟨-, hj⟩ <;> rcases getElem?_replaced hk with ⟨-, hk⟩ | ⟨-, hk⟩
      · exact h.one j k u u' hj hk
      · exact absurd rfl ((hstep.task _ hk).2 u')
      · exact absurd rfl ((hstep.task _ hj).2 u)
      · exact absurd rfl ((hstep.task _ hj).2 u)
    · cases hstep

end World

/-- **Withdrawn text is restored once**, and never lost, in every run that meets the condition. -/
theorem always_restored_once (w : World) (hw : Reachable cockpitSystem Mindful w) : RestoredOnce w.cockpit := by
  have hinit : cockpitSystem.init.Preserved := by
    refine ⟨⟨placed_nil, ⟨fun _ h => absurd h List.not_mem_nil, fun _ h => absurd h List.not_mem_nil,
      fun _ h => absurd h List.not_mem_nil, fun _ _ h => (nomatch h), fun _ h => absurd h List.not_mem_nil, nofun, nofun,
      fun _ _ _ h => absurd h List.not_mem_nil⟩⟩, fun i t hi => ?_, fun i j u u' hi => ?_⟩
    · cases hi
    · cases hi
  have h : w.Preserved := hw.invariant hinit fun _ _ _ hs hok hst => hs.step hok hst
  exact ⟨h.cockpit.placed.logged.settled, h.cockpit.placed.logged.founded, h.cockpit.placed.logged.revisions,
    h.cockpit.placed.slotted.accounted, h.cockpit.texts.brought, h.cockpit.texts.recovery, h.cockpit.texts.one⟩

/-! ## An answer after the dismissal -/

instance : (settlement : SubmissionObservationSettlement) → Decidable (settlement = .preserve)
  | .preserve => .isTrue rfl
  | .incoming _ => .isFalse nofun
  | .possibleSendJoin => .isFalse nofun

instance (s : PerSessionCockpit) (v : WithdrawalWait) (r : WithdrawalReply) : Decidable (Answerable s v r) :=
  inferInstanceAs (Decidable (_ → _ ∨ (_ → Option.isSome _ = true)))

instance (w : World) : (a : Action) → Decidable (Mindful w a)
  | .call _ _ => .isTrue trivial
  | .resume i r now =>
    match hi : w.tasks[i]?, r with
    | some (some (.driver _ d)), .driver reply =>
      decidable_of_iff (d.record.source = .composer → reply.saysQueued = true → .withdrawn d.record.requestId true ∉ w.cockpit.log) <|
        by simp only [Mindful, hi]
    | some (some (.withdrawal v)), .withdrawal reply =>
      decidable_of_iff (Answerable w.cockpit v reply) <| by simp only [Mindful, hi]
    | some (some (.driver _ _)), .authority _ | some (some (.driver _ _)), .statusBatch _
    | some (some (.driver _ _)), .withdrawal _ | some (some (.withdrawal _)), .authority _
    | some (some (.withdrawal _)), .driver _ | some (some (.withdrawal _)), .statusBatch _ => .isTrue (by simp only [Mindful, hi])
    | some (some (.authority ..)), _ | some (some (.poll _)), _ => .isTrue (by simp only [Mindful, hi])
    | some none, _ | none, _ => .isTrue (by simp only [Mindful, hi])

def queuedThenWithdrawn : List Action :=
  [.call (.setComposerDraft "hello") 0, .call (.submitSessionDraft true) 1, .resume 1 (.authority (some "e1")) 2,
    .resume 1 (.driver (.receipt (.ok ⟨.queued, none, "e1"⟩))) 3, .call .withdrawLastQueuedSubmission 4]

def withdrawalWithdrawn : Action := .resume 2 (.withdrawal (.withdrawal (.ok ⟨.withdrawn, some .withdrawn, none⟩))) 5

def restoredWorld : World :=
  (checkedRun cockpitSystem Mindful cockpitSystem.init (queuedThenWithdrawn ++ [withdrawalWithdrawn])).get (by decide +kernel)

def dismissedThenAnswered : List Action :=
  [.call (.setComposerDraft "other") 5, .call .pollSubmissionLifecycleOnce 6,
    .resume 4 (.statusBatch (.ok fun _ => some ⟨.withdrawn, none⟩)) 7, .call (.dismissWithdrawnRecovery 0 3) 8,
    .resume 2 (.withdrawal (.withdrawal (.error (.failed "lost")))) 9,
    .resume 2 (.withdrawal (.status (.ok (some ⟨.withdrawn, none⟩)))) 10]

def broughtBackWorld : World :=
  (runFrom cockpitSystem cockpitSystem.init (queuedThenWithdrawn ++ dismissedThenAnswered)).get (by decide +kernel)

theorem always_restored_once_replaced : restoredWorld.cockpit.composer.draft = "hello" ∧ RestoredOnce restoredWorld.cockpit :=
  ⟨by decide +kernel, always_restored_once restoredWorld (steps_of_checkedRun (Option.some_get _).symm)⟩

/-- The text is back in the recovery slot after it was dismissed. -/
theorem dismissed_text_back : ¬ AlwaysRestoredOnce fun _ _ => True := by
  intro h
  have hreachable : Reachable cockpitSystem (fun _ _ => True) broughtBackWorld :=
    steps_of_runFrom (fun _ _ _ => trivial) (Option.some_get _).symm
  have hlog : broughtBackWorld.cockpit.log =
      [.requested 0 2, .withdrawn 0 true, .held 0 "hello", .dismissed 0, .withdrawn 0 true, .held 0 "hello"] := by
    decide +kernel
  have hsettled := (h broughtBackWorld hreachable).settled 0 "hello"
  rw [hlog] at hsettled
  have hlast := hsettled [.requested 0 2, .withdrawn 0 true, .held 0 "hello"] (.dismissed 0) [.withdrawn 0 true, .held 0 "hello"] rfl rfl
    (.held 0 "hello") (by simp)
  exact hlast ⟨rfl, rfl⟩

end AgentsRemember.Cockpit
