import AgentsRemember.Chats.StreamsSound
import AgentsRemember.Chats.WholeSound

/-!
# One stream, no stranded and no holed conversation

Which answers are of an earlier projection, what the store promises in every
run, and the runs in which it keeps it: no older page is answered after the
projection that it was asked for was replaced, or its older cursor went further
back than the page, and no page waits to be taken up while its runtime is
replaced.
-/

namespace AgentsRemember.Chats

open Lib

variable {β : Type}

/-! ## What is promised -/

/-- At most one `EventSource` is open, and it is the focused session's. -/
def OneStream (w : World β) : Prop :=
  (∀ k, (w.streams k).source ≠ none → w.focusedConversationId = some (w.streams k).sessionId) ∧
    ∀ k k', (w.streams k).source ≠ none → (w.streams k').source ≠ none → k = k'

/-- A task that goes on without the network: what it awaited has settled, or was aborted. -/
def PageTask.pending (w : World β) (t : PageTask β) : Bool :=
  match t.phase with
  | .fetching | .delaying => w.aborted t.signal
  | .returned _ | .looped _ _ => true

def Settled (w : World β) : Prop := ∀ i t, w.tasks i = some (.page t) → t.pending w = false

/-- Once nothing is pending, a focused conversation that has not failed has a controller or a page request in flight. -/
def NotStranded (w : World β) : Prop :=
  Settled w → ∀ s r p, w.focusedConversationId = some s → w.runtimeBySession s = some r → (w.runtimes r).disposed = false →
    w.bySession s = some p → p.stream ≠ .projectionFailed →
      (w.runtimes r).controller ≠ none ∨ ∃ i t, w.tasks i = some (.page t) ∧ t.sessionId = s ∧ t.runtime = r ∧ t.pending w = false

def AsksEarlier (w : World β) : Action β → Prop
  | .answered i _ _ | .resumed i => ∃ t, w.tasks i = some (.page t) ∧ w.runtimeBySession t.sessionId ≠ some t.runtime
  | .olderAnswered i _ => ∃ t, w.tasks i = some (.older t) ∧
      (w.runtimeBySession t.sessionId ≠ some t.runtime ∨ ∀ p, w.bySession t.sessionId = some p → p.basis ≠ t.basis)
  | _ => False

def Honest (H : Nat → History) (w : World β) : Action β → Prop
  | .resumed i => ∀ t page, w.tasks i = some (.page t) → t.phase = .returned (some (.ok page)) →
      ∃ next, (H w.bases).Block page.items ((H w.bases).before page.olderCursor) next
  | .olderAnswered i (.ok page) => ∀ t, w.tasks i = some (.older t) →
      (H t.basis).Block page.items ((H t.basis).before page.olderCursor) ((H t.basis).stands t.before)
  | .message k envelope => ∀ p, w.bySession (w.streams k).sessionId = some p → p.hasUnappliedCursorGap envelope = false →
      HonestEvent H p w.bases envelope.mutation
  | _ => True

structure AlwaysOneStream [DecidableEq β] (ok : World β → Action β → Prop) : Prop where
  owner : ∀ w, Reachable (conversationSystem β) ok w → OneStream w
  served : ∀ w, Reachable (conversationSystem β) ok w → NotStranded w
  current : ∀ w a v, Reachable (conversationSystem β) ok w → ok w a → w.step a = some v → AsksEarlier w a →
    v.bySession = w.bySession
  whole : ∀ (H : Nat → History) w, Reachable (conversationSystem β) (fun w a => ok w a ∧ Honest H w a) w →
    ∀ s p, w.bySession s = some p → Whole (H p.basis) p

def takesUp (w : World β) (t : PageTask β) : Bool :=
  match t.phase with
  | .returned (some (.ok _)) => true
  | .returned (some (.failed _)) => (w.bySession t.sessionId).isSome &&
      (t.kind = .hydrate || maxDeadStreamRecoveries ≤ (w.runtimes t.runtime).streamRecoveries)
  | _ => false

/-- No page is taken up for a runtime that was replaced, and an older page only by the projection that it fits. -/
def Timely (w : World β) : Action β → Prop
  | .resumed i => ∀ t, w.tasks i = some (.page t) → takesUp w t = true → w.runtimeBySession t.sessionId = some t.runtime
  | .olderAnswered i (.ok page) => ∀ t p, w.tasks i = some (.older t) → (w.runtimes t.runtime).disposed = false →
      w.bySession t.sessionId = some p →
        p.basis = t.basis ∧ (p.olderCursor = some t.before ∨ page.olderCursor = p.olderCursor ∨ startsBefore page p = true)
  | _ => True

variable {w v : World β} {i : Nat}

/-! ## The wires in every timely run -/

theorem init_sound : Sound (World.init : World β) := by
  refine ⟨⟨fun _ _ h => (nomatch h), fun _ h => (nomatch h), fun _ _ => ⟨rfl, rfl⟩, fun _ _ h => (nomatch h), fun _ h => (nomatch h),
    fun _ _ => ⟨rfl, rfl⟩, fun _ _ => rfl, fun _ _ h => (nomatch h), fun _ _ _ _ h => (nomatch h), fun _ h => (nomatch h),
    fun _ _ => rfl, fun _ _ h => (nomatch h)⟩, fun _ _ _ _ h => (nomatch h), fun _ _ _ h => (nomatch h)⟩

variable {t : PageTask β} {a : Action β} {envelope : ConversationEventEnvelope β}

theorem Sound.resumePage (h : Sound w) (ht : w.tasks i = some (.page t))
    (hok : takesUp w t = true → w.runtimeBySession t.sessionId = some t.runtime) (hstep : w.resumePage i t = some v) :
    Sound v := by
  unfold World.resumePage at hstep
  split at hstep
  · rename_i page hphase _
    cases hstep
    exact h.hydrated ht page fun p hp => hok (by unfold takesUp; rw [hphase, hp])
  · rename_i page hphase _
    cases hstep
    exact h.repaged ht (by rw [hphase]; exact nofun) page fun p hp => hok (by unfold takesUp; rw [hphase, hp])
  · rename_i recovered cancelled hphase
    cases hstep
    exact h.repageDone ht hphase
  · cases hstep

theorem Sound.step [DecidableEq β] (h : Sound w) (hok : Timely w a) (hstep : w.step a = some v) : Sound v := by
  cases a with
  | connect sessionId epoch limit =>
    cases hstep
    exact connectConversation_sound h.wired h.gaveUp sessionId epoch limit
  | focus sessionId =>
    cases hstep
    exact focusConversation_sound h.wired h.gaveUp sessionId
  | touch sessionId =>
    cases hstep
    exact touchConversation_sound h.wired h.gaveUp sessionId
  | disconnect sessionId =>
    cases hstep
    exact h.disconnect sessionId
  | loadOlder sessionId =>
    cases hstep
    exact h.loadOlder sessionId
  | reset =>
    cases hstep
    exact h.reset
  | answered i page late =>
    simp only [World.step] at hstep
    split at hstep
    · rename_i t ht
      split at hstep
      · cases hstep
        refine h.replacePage ht rfl rfl rfl ?_
        unfold World.fetched
        dsimp only
        split
        · exact nofun
        split
        · exact nofun
        · split <;> exact nofun
      · cases hstep
    · cases hstep
  | delayed i =>
    simp only [World.step] at hstep
    split at hstep
    · rename_i t ht
      split at hstep
      · split at hstep
        · cases hstep
          exact h.replacePage ht rfl rfl rfl nofun
        · cases hstep
          exact h.replacePage ht rfl rfl rfl (attempt_phase w t)
      · cases hstep
    · cases hstep
  | resumed i =>
    simp only [World.step] at hstep
    split at hstep
    · rename_i t ht
      exact h.resumePage ht (hok t ht) hstep
    · cases hstep
  | olderAnswered i page =>
    simp only [World.step] at hstep
    split at hstep
    · rename_i t ht
      cases hstep
      exact h.olderTaken ht page
    · cases hstep
  | opened k =>
    simp only [World.step] at hstep
    split at hstep
    · rename_i b hb
      cases hstep
      have hstop := h.wired.not_stopped (.inl (by rw [hb]; exact nofun))
      have hopened := (h.reporting hstop).setStream (fun stream => { stream with source := some true }) fun _ => ⟨rfl, rfl, rfl⟩
      exact hopened.onOpen
    · cases hstep
  | message k envelope =>
    simp only [World.step] at hstep
    split at hstep
    · rename_i b hb
      cases hstep
      have hstop := h.wired.not_stopped (.inl (by rw [hb]; exact nofun))
      exact (h.reporting hstop).onEnvelope envelope
    · cases hstep
  | errored k =>
    simp only [World.step] at hstep
    split at hstep
    · rename_i b hb
      cases hstep
      have hstop := h.wired.not_stopped (.inl (by rw [hb]; exact nofun))
      exact (h.reporting hstop).deadInstance b
    · cases hstep
  | reopened k =>
    simp only [World.step] at hstep
    split at hstep
    · rename_i htimer
      cases hstep
      have hstop := h.wired.not_stopped (.inr htimer)
      have hcleared := (h.reporting hstop).setStream (fun stream => { stream with timer := false }) fun _ => ⟨rfl, rfl, rfl⟩
      exact ⟨hcleared.wired.openStreamInstance hcleared.streams.2.2, hcleared.served, hcleared.gaveUp⟩
    · cases hstep
  | cycled k =>
    simp only [World.step] at hstep
    split at hstep
    · rename_i hopen
      cases hstep
      have hstop := h.wired.not_stopped (.inl (by rw [hopen]; exact nofun))
      have hcleared := (h.reporting hstop).setStream (fun stream => { stream with timer := false }) fun _ => ⟨rfl, rfl, rfl⟩
      exact ⟨hcleared.wired.openStreamInstance hcleared.streams.2.2, hcleared.served, hcleared.gaveUp⟩
    · cases hstep

theorem Wired.oneStream (h : Wired w) : OneStream w := by
  have hopen : ∀ k, (w.streams k).source ≠ none → w.focusedConversationId = some (w.streams k).sessionId ∧
      w.runtimeBySession (w.streams k).sessionId = some (w.streams k).runtime ∧
      (w.runtimes (w.streams k).runtime).controller = some k := by
    intro k hk
    obtain ⟨hcan, hctl, -⟩ := h.streaming k (h.not_stopped (.inl hk))
    obtain ⟨hfocus, hreg, -⟩ := canStream_iff.mp hcan
    exact ⟨hfocus, hreg, hctl⟩
  refine ⟨fun k hk => (hopen k hk).1, fun k k' hk hk' => ?_⟩
  obtain ⟨hfocus, hreg, hctl⟩ := hopen k hk
  obtain ⟨hfocus', hreg', hctl'⟩ := hopen k' hk'
  have hsession := Option.some.inj (hfocus.symm.trans hfocus')
  rw [← hsession] at hreg'
  have hruntime := Option.some.inj (hreg.symm.trans hreg')
  rw [← hruntime] at hctl'
  exact Option.some.inj (hctl.symm.trans hctl')

theorem Sound.notStranded (h : Sound w) : NotStranded w := by
  intro hsettled s r p hf hreg _ hp hok
  rcases h.served s r p nofun hf hreg hp hok with hctl | hbusy
  · exact .inl hctl
  obtain ⟨i, t, ht, hr⟩ := h.wired.inFlight r hbusy
  refine .inr ⟨i, t, ht, ?_, hr, hsettled i t ht⟩
  have hsession := (h.wired.waiting i t ht).2.2
  rw [hr, (h.wired.registered s r hreg).2] at hsession
  exact hsession.symm

/-! ## What is held in every honest run -/

variable {H : Nat → History}

structure Holding (H : Nat → History) (w : World β) : Prop where
  holds : ∀ s p, w.bySession s = some p → Holds H p ∧ p.basis < w.bases
  loads : ∀ i t, w.tasks i = some (.older t) → t.basis < w.bases ∧ ∀ p, w.bySession t.sessionId = some p → p.basis = t.basis →
    (H t.basis).before p.olderCursor ≤ (H t.basis).stands t.before ∧
      (H t.basis).stands t.before ≤ (H t.basis).before p.olderCursor + p.held.orderedItemIds.length

theorem Holding.kept (h : Holding H w) (hkept : Kept w v) : Holding H v := by
  refine ⟨fun s p' hp' => ?_, fun i t ht => ?_⟩
  · obtain ⟨p, hp, hheld, holder, hbasis⟩ := hkept.projections s p' hp'
    obtain ⟨hholds, hlt⟩ := h.holds s p hp
    unfold Holds at hholds ⊢
    rw [hheld, holder, hbasis, hkept.bases]
    exact ⟨hholds, hlt⟩
  obtain ⟨hlt, hall⟩ := h.loads i t (hkept.older i t ht)
  rw [hkept.bases]
  refine ⟨hlt, fun p' hp' heq => ?_⟩
  obtain ⟨p, hp, hheld, holder, hbasis⟩ := hkept.projections t.sessionId p' hp'
  rw [hheld, holder]
  exact hall p hp (hbasis.symm.trans heq)

theorem Holding.setProjection (h : Holding H w) (s : String) {r : Projection β} {n : Nat} (hn : w.bases ≤ n) (hholds : Holds H r)
    (hbasis : r.basis < n) (hloads : ∀ i t, w.tasks i = some (.older t) → t.sessionId = s → r.basis = t.basis →
      (H t.basis).before r.olderCursor ≤ (H t.basis).stands t.before ∧
        (H t.basis).stands t.before ≤ (H t.basis).before r.olderCursor + r.held.orderedItemIds.length) :
    Holding H { w.setProjection s (some r) with bases := n } := by
  refine ⟨fun s' q hq => ?_, fun i t ht => ?_⟩
  · simp only [World.setProjection, Function.update_apply] at hq
    split at hq
    · cases hq
      exact ⟨hholds, hbasis⟩
    · obtain ⟨hold, hlt⟩ := h.holds s' q hq
      exact ⟨hold, hlt.trans_le hn⟩
  obtain ⟨hlt, hall⟩ := h.loads i t ht
  refine ⟨hlt.trans_le hn, fun q hq heq => ?_⟩
  simp only [World.setProjection, Function.update_apply] at hq
  split at hq
  · rename_i hs
    cases hq
    exact hloads i t ht hs heq
  · exact hall q hq heq

theorem Holding.applyInitial (h : Holding H w) (s : String) {page : ConversationPage β} {next : Nat}
    (hblock : (H w.bases).Block page.items ((H w.bases).before page.olderCursor) next) : Holding H (w.applyInitial s page) := by
  have hnew := h.setProjection s (r := ((w.bySession s).getD (emptyProjection page.identity)).applyInitialPage page w.bases)
    (Nat.le_succ _) (Stretch.holds (stretch_replaced hblock)) (Nat.lt_succ_self _) fun i t ht _ heq =>
      absurd heq (Nat.ne_of_gt (h.loads i t ht).1)
  exact hnew.kept (kept_of_eq rfl rfl rfl)

theorem Holding.ingestEvent [DecidableEq β] (h : Holding H w) (s : String)
    (hm : ∀ p, w.bySession s = some p → p.hasUnappliedCursorGap envelope = false → HonestEvent H p w.bases envelope.mutation) :
    Holding H (w.ingestEvent s envelope) := by
  unfold World.ingestEvent
  split
  · rename_i next hnext
    obtain ⟨p, hp, happ⟩ := Option.bind_eq_some_iff.mp hnext
    obtain ⟨hold, hlt⟩ := h.holds s p hp
    obtain ⟨hholds, holder, hbasis⟩ := holds_event hold (hm p hp) happ
    refine h.setProjection s (Nat.le_succ _) hholds ?_ fun i t ht hs heq => ?_
    · rcases hbasis with ⟨hbasis, -⟩ | hbasis <;> omega
    obtain ⟨hlt', hall⟩ := h.loads i t ht
    rcases hbasis with ⟨hbasis, hle⟩ | hbasis
    · obtain ⟨hlo, hhi⟩ := hall p (hs ▸ hp) (hbasis.symm.trans heq)
      rw [holder]
      exact ⟨hlo, hhi.trans (Nat.add_le_add_left hle _)⟩
    · omega
  · exact h

theorem Holding.loadOlder (h : Holding H w) (s : String) : Holding H (w.loadOlderConversation s) := by
  unfold World.loadOlderConversation
  split
  · rename_i r p _ hp
    split
    · rename_i before _ hbefore
      obtain ⟨hold, hlt⟩ := h.holds s p hp
      refine ⟨h.holds, fun i t ht => ?_⟩
      simp only [World.startTask, World.setTask, Function.update_apply] at ht
      split at ht
      · cases ht
        refine ⟨hlt, fun q hq _ => ?_⟩
        have hpq : p = q := Option.some.inj (hp.symm.trans hq)
        rw [← hpq, hbefore]
        exact ⟨le_rfl, Nat.le_add_right _ _⟩
      · exact h.loads i t ht
    · exact h
  · exact h

theorem Holding.olderTaken (h : Holding H w) (hw : Wired w) {t : OlderTask} (ht : w.tasks i = some (.older t))
    {page : PageResult β} (hok : Timely w (.olderAnswered i page)) (hm : Honest H w (.olderAnswered i page)) :
    Holding H (w.olderTaken i t page) := by
  have hend : Holding H (w.setTask i none) := h.kept (kept_setTask w i fun _ hu => (by cases hu))
  unfold World.olderTaken
  cases page with
  | failed _ => exact hend
  | ok page =>
    dsimp only
    split
    · exact hend
    rename_i hopen
    have hopen' : (w.runtimes t.runtime).disposed = false := Bool.not_eq_true _ ▸ hopen
    obtain ⟨p, hp⟩ := Option.isSome_iff_exists.mp ((hw.older i t ht).2.2 hopen')
    obtain ⟨hbasis, hfits⟩ := hok t p ht hopen' hp
    obtain ⟨hold, hlt⟩ := h.holds _ p hp
    obtain ⟨hlo, hhi⟩ := (h.loads i t ht).2 p hp hbasis
    have hblock := hm t ht
    rw [← hbasis] at hlo hhi hblock
    have hstart : (H p.basis).before page.olderCursor ≤ (H p.basis).before p.olderCursor := by
      rcases hfits with hcursor | hsame | hstarts
      · rw [hcursor]
        exact hblock.1
      · rw [hsame]
      · exact startsBefore_le hblock hold hstarts
    have hstretch := stretch_older hold hblock hstart hlo hhi
    have happ : ((w.setTask i none).bySession t.sessionId).getD (emptyProjection page.identity) = p := by
      change (w.bySession t.sessionId).getD (emptyProjection page.identity) = p
      rw [hp, Option.getD_some]
    have hlen := hstretch.length
    have hnew := hend.setProjection t.sessionId (r := p.applyOlderPage page) (le_refl w.bases) (Stretch.holds hstretch) hlt
      fun j u hu hs heq => by
        obtain ⟨hlo', hhi'⟩ := (hend.loads j u hu).2 p (hs ▸ hp) heq
        have heq' : p.basis = u.basis := heq
        rw [← heq'] at hlo' hhi' ⊢
        change (H p.basis).before page.olderCursor ≤ (H p.basis).stands u.before ∧ (H p.basis).stands u.before ≤
          (H p.basis).before page.olderCursor + (p.applyOlderPage page).held.orderedItemIds.length
        rw [show (p.applyOlderPage page).held.orderedItemIds.length =
          (H p.basis).before p.olderCursor - (H p.basis).before page.olderCursor + p.held.orderedItemIds.length from
            hstretch.length]
        omega
    unfold World.applyOlder
    dsimp only
    rw [happ]
    exact hnew.kept (kept_of_eq rfl rfl rfl)

theorem Holding.onEnvelope [DecidableEq β] (h : Holding H w) (s : String) (r : Nat)
    (hm : ∀ p, w.bySession s = some p → p.hasUnappliedCursorGap envelope = false → HonestEvent H p w.bases envelope.mutation) :
    Holding H (w.onEnvelope s r envelope) := by
  unfold World.onEnvelope
  split
  · exact h
  have hing := h.ingestEvent s hm
  dsimp only
  split
  · exact hing.kept (kept_repageAndResume ..)
  · exact hing

theorem Holding.resumePage (h : Holding H w) (hm : ∀ page, t.phase = .returned (some (.ok page)) →
    ∃ next, (H w.bases).Block page.items ((H w.bases).before page.olderCursor) next) (hstep : w.resumePage i t = some v) :
    Holding H v := by
  unfold World.resumePage at hstep
  split at hstep
  · rename_i page hphase _
    cases hstep
    have hend : Kept w (w.endPage i t) := kept_endPage w i t
    unfold World.hydrated
    dsimp only
    split
    · split
      · exact h.kept (hend.trans (kept_hydrateAndStream ..))
      · exact h.kept hend
    · rename_i page
      obtain ⟨next, hblock⟩ := hm page hphase
      have hpend : Kept w ((w.endPage i t).clearPending t.runtime) := hend.trans (kept_of_eq rfl rfl rfl)
      exact ((h.kept hpend).applyInitial t.sessionId hblock).kept (kept_streamIfFocused ..)
    · refine h.kept (Kept.trans ?_ (kept_setStreamPhase ..))
      exact hend.trans (kept_of_eq rfl rfl rfl)
  · rename_i page hphase _
    cases hstep
    unfold World.repaged
    split
    · exact h.kept (kept_setTask _ i fun _ hu => (by cases hu))
    · rename_i page
      obtain ⟨next, hblock⟩ := hm page hphase
      exact ((h.applyInitial t.sessionId hblock).kept (kept_clearRecovery ..)).kept (kept_setTask _ i fun _ hu => (by cases hu))
    split
    · refine h.kept (Kept.trans ?_ (kept_setTask _ i fun _ hu => (by cases hu)))
      exact kept_of_eq rfl rfl rfl
    · exact h.kept ((kept_setStreamPhase ..).trans (kept_setTask _ i fun _ hu => (by cases hu)))
  · cases hstep
    exact h.kept (kept_repageDone ..)
  · cases hstep

theorem Holding.step [DecidableEq β] (h : Holding H w) (hw : Wired w) (hok : Timely w a) (hm : Honest H w a)
    (hstep : w.step a = some v) : Holding H v := by
  cases a with
  | connect sessionId epoch limit =>
    cases hstep
    exact h.kept (kept_connectConversation ..)
  | focus sessionId =>
    cases hstep
    exact h.kept (kept_focusConversation ..)
  | touch sessionId =>
    cases hstep
    exact h.kept (kept_touchConversation ..)
  | disconnect sessionId =>
    cases hstep
    exact h.kept (kept_disconnectConversation ..)
  | loadOlder sessionId =>
    cases hstep
    exact h.loadOlder sessionId
  | reset =>
    cases hstep
    exact h.kept (kept_reset w)
  | answered i page late =>
    simp only [World.step] at hstep
    split at hstep
    · split at hstep
      · cases hstep
        exact h.kept (kept_setTask _ i fun _ hu => (by cases hu))
      · cases hstep
    · cases hstep
  | delayed i =>
    simp only [World.step] at hstep
    split at hstep
    · split at hstep
      · split at hstep <;> cases hstep <;> exact h.kept (kept_setTask _ i fun _ hu => (by cases hu))
      · cases hstep
    · cases hstep
  | resumed i =>
    simp only [World.step] at hstep
    split at hstep
    · rename_i t ht
      exact h.resumePage (fun page => hm t page ht) hstep
    · cases hstep
  | olderAnswered i page =>
    simp only [World.step] at hstep
    split at hstep
    · rename_i t ht
      cases hstep
      exact h.olderTaken hw ht hok hm
    · cases hstep
  | opened k =>
    simp only [World.step] at hstep
    split at hstep
    · cases hstep
      refine h.kept (Kept.trans ?_ (kept_onOpen ..))
      exact kept_of_eq rfl rfl rfl
    · cases hstep
  | message k envelope =>
    simp only [World.step] at hstep
    split at hstep
    · cases hstep
      exact h.onEnvelope _ _ hm
    · cases hstep
  | errored k =>
    simp only [World.step] at hstep
    split at hstep
    · cases hstep
      exact h.kept (kept_deadInstance ..)
    · cases hstep
  | reopened k | cycled k =>
    simp only [World.step] at hstep
    split at hstep
    · cases hstep
      exact h.kept (kept_of_eq rfl rfl rfl)
    · cases hstep

theorem failStream_absent {s : String} (h : w.bySession s = none) : w.failStream s = w := by
  unfold World.failStream World.setStreamPhase
  rw [h]

theorem resumePage_earlier (hreg : w.runtimeBySession t.sessionId ≠ some t.runtime) (hup : takesUp w t = false)
    (hstep : w.resumePage i t = some v) : v.bySession = w.bySession := by
  have hcan : ∀ u : World β, u.runtimeBySession = w.runtimeBySession → u.runtimeCanStream t.sessionId t.runtime = false := by
    intro u hu
    rw [← Bool.not_eq_true, canStream_iff]
    exact fun h => hreg (hu ▸ h.2.1)
  unfold takesUp at hup
  unfold World.resumePage at hstep
  split at hstep
  · rename_i page hphase hkind
    cases hstep
    rw [hphase] at hup
    unfold World.hydrated
    dsimp only
    cases page with
    | none =>
      dsimp only
      rw [if_neg (by rw [hcan (w.endPage i t) rfl]; exact Bool.false_ne_true)]
      rfl
    | some result =>
      cases result with
      | ok page => cases hup
      | failed status =>
        rw [hkind, decide_eq_true rfl, Bool.true_or, Bool.and_true, Option.isSome_eq_false_iff, Option.isNone_iff_eq_none] at hup
        have habsent : ((w.endPage i t).clearPending t.runtime).bySession t.sessionId = none := hup
        dsimp only
        rw [failStream_absent habsent]
        rfl
  · rename_i page hphase hkind
    cases hstep
    rw [hphase] at hup
    unfold World.repaged
    cases page with
    | none => rfl
    | some result =>
      cases result with
      | ok page => cases hup
      | failed status =>
        dsimp only
        split
        · rfl
        rename_i hcap
        rw [decide_eq_true (Nat.le_of_not_lt hcap), Bool.or_true, Bool.and_true, Option.isSome_eq_false_iff,
          Option.isNone_iff_eq_none] at hup
        rw [failStream_absent hup]
        rfl
  · rename_i recovered cancelled _
    cases hstep
    unfold World.repageDone
    dsimp only
    rw [hcan (w.endPage i t) rfl, Bool.and_false, if_neg Bool.false_ne_true]
    unfold World.streamIfFocused
    cases cancelled <;> cases recovered <;> simp only [Bool.false_eq_true, if_true, if_false]
    · rfl
    · rw [hcan ((w.endPage i t).clearPending t.runtime) rfl, if_neg Bool.false_ne_true]
      rfl
    · rfl
    · rw [hcan (w.endPage i t) rfl, if_neg Bool.false_ne_true]
      rfl
  · cases hstep

theorem earlier_unchanged [DecidableEq β] (h : Sound w) (hok : Timely w a) (hstep : w.step a = some v)
    (hearlier : AsksEarlier w a) : v.bySession = w.bySession := by
  cases a with
  | answered i page late =>
    simp only [World.step] at hstep
    split at hstep
    · split at hstep <;> cases hstep
      rfl
    · cases hstep
  | resumed i =>
    obtain ⟨t, ht, hreg⟩ := hearlier
    simp only [World.step, ht] at hstep
    refine resumePage_earlier hreg ?_ hstep
    cases hup : takesUp w t with
    | false => rfl
    | true => exact absurd (hok t ht hup) hreg
  | olderAnswered i page =>
    obtain ⟨t, ht, hearlier⟩ := hearlier
    simp only [World.step, ht] at hstep
    cases hstep
    unfold World.olderTaken
    cases page with
    | failed _ => rfl
    | ok page =>
      dsimp only
      split
      · rfl
      rename_i hopen
      have hopen' : (w.runtimes t.runtime).disposed = false := Bool.not_eq_true _ ▸ hopen
      obtain ⟨-, hsession, hsome⟩ := h.wired.older i t ht
      obtain ⟨p, hp⟩ := Option.isSome_iff_exists.mp (hsome hopen')
      rcases hearlier with hreg | hbasis
      · exact absurd (hsession ▸ h.wired.undisposed _ hopen') hreg
      · exact absurd (hok t p ht hopen' hp).1 (hbasis p hp)
  | _ => exact hearlier.elim

/-! ## Every run -/

/-- **One stream, no stranded and no holed conversation**, in every timely run. -/
theorem always_one_stream [DecidableEq β] : AlwaysOneStream (Timely (β := β)) := by
  have hsound : ∀ {ok : World β → Action β → Prop}, (∀ w a, ok w a → Timely w a) → ∀ w,
      Reachable (conversationSystem β) ok w → Sound w := fun hle w hw =>
    hw.invariant init_sound fun _ _ _ hs hok hst => hs.step (hle _ _ hok) hst
  refine ⟨fun w hw => (hsound (fun _ _ h => h) w hw).wired.oneStream, fun w hw => (hsound (fun _ _ h => h) w hw).notStranded,
    fun w a v hw hok hstep => earlier_unchanged (hsound (fun _ _ h => h) w hw) hok hstep, fun H w hw s p hp => ?_⟩
  have hinit : Sound (World.init : World β) ∧ Holding H (World.init : World β) :=
    ⟨init_sound, ⟨fun _ _ h => (nomatch h), fun _ _ h => (nomatch h)⟩⟩
  have hall : Sound w ∧ Holding H w := hw.invariant (I := fun w => Sound w ∧ Holding H w) hinit fun _ _ _ hs hok hst =>
    ⟨hs.1.step hok.1 hst, hs.2.step hs.1.wired hok.1 hok.2 hst⟩
  exact Stretch.whole (hall.2.holds s p hp).1

/-! ## Two runs -/

instance (w : World β) : (a : Action β) → Decidable (Timely w a)
  | .resumed i =>
    match hi : w.tasks i with
    | some (.page t) => decidable_of_iff (takesUp w t = true → w.runtimeBySession t.sessionId = some t.runtime)
        ⟨fun h t' ht' => by
          rw [hi] at ht'
          cases ht'
          exact h, fun h => h t hi⟩
    | some (.older _) | none => isTrue fun t ht => by
      rw [hi] at ht
      cases ht
  | .olderAnswered i (.ok page) =>
    match hi : w.tasks i with
    | some (.older t) =>
      match hp : w.bySession t.sessionId with
      | some p => decidable_of_iff ((w.runtimes t.runtime).disposed = false → p.basis = t.basis ∧
            (p.olderCursor = some t.before ∨ page.olderCursor = p.olderCursor ∨ startsBefore page p = true))
          ⟨fun h t' p' ht' hopen hp' => by
            rw [hi] at ht'
            cases ht'
            rw [hp] at hp'
            cases hp'
            exact h hopen, fun h hopen => h t p hi hopen hp⟩
      | none => isTrue fun t' p' ht' _ hp' => by
        rw [hi] at ht'
        cases ht'
        rw [hp] at hp'
        cases hp'
    | some (.page _) | none => isTrue fun t _ ht => by
      rw [hi] at ht
      cases ht
  | .olderAnswered _ (.failed _) | .connect _ _ _ | .focus _ | .touch _ | .disconnect _ | .loadOlder _ | .reset | .answered _ _ _
  | .delayed _ | .opened _ | .message _ _ | .errored _ | .reopened _ | .cycled _ => isTrue trivial

def ref : ActiveConversationRef := ⟨"s", "e"⟩

def itemAt (id : String) (n : Nat) : Active.ConversationItem Unit where
  itemId := id
  revision := 1
  globalOrdinal := n
  lane := .harness
  source := .harnessLive
  provenance := { strength := .unknown, origin := "" }
  role := .assistant
  kind := .message
  phase := .completed
  blocks := []

def pageOf (items : List (Active.ConversationItem Unit)) (olderCursor : Option String) : PageResult Unit :=
  .ok ⟨ref, items, olderCursor, olderCursor.isSome, "x", ⟨0, ""⟩⟩

def liveEvent (mutation : ConversationMutation Unit) : ConversationEventEnvelope Unit := ⟨ref, "y", some "x", "1", .live, mutation⟩

def timelyRun : List (Action Unit) :=
  [.connect "s" "e" none, .answered 0 (pageOf [itemAt "b" 1] (some "1")) false, .resumed 0, .opened 0, .loadOlder "s",
    .message 0 (liveEvent (.items (.appendItem (itemAt "c" 2)))), .olderAnswered 1 (pageOf [itemAt "a" 0] none)]

theorem always_one_stream_live : ∃ w : World Unit, (w.bySession "s").map (·.ordinals) = some [some 0, some 1, some 2] ∧
    (w.streams 0).source = some true ∧ OneStream w ∧ NotStranded w := by
  have hrun : (checkedRun (conversationSystem Unit) Timely World.init timelyRun).any (fun w =>
      (w.bySession "s").map (·.ordinals) = some [some 0, some 1, some 2] && (w.streams 0).source = some true) = true := by
    decide +kernel
  obtain ⟨w, hw, hheld⟩ := exists_of_checkedRun hrun
  rw [Bool.and_eq_true, decide_eq_true_eq, decide_eq_true_eq] at hheld
  exact ⟨w, hheld.1, hheld.2, always_one_stream.owner w hw, always_one_stream.served w hw⟩

def replacedRun : List (Action Unit) :=
  [.connect "s" "e" none, .answered 0 (pageOf [itemAt "b" 1] (some "1")) false, .resumed 0, .loadOlder "s",
    .message 0 (liveEvent .gap), .answered 2 (pageOf [itemAt "c" 2] (some "2")) false, .resumed 2, .resumed 2]

def lateAnswer : Action Unit := .olderAnswered 1 (pageOf [itemAt "a" 0] none)

def makesHole (w : World Unit) : Bool :=
  match w.tasks 1, w.bySession "s", w.step lateAnswer with
  | some (.older t), some p, some v => t.sessionId = "s" && p.basis ≠ t.basis && p.ordinals = [some 2] &&
      (v.bySession "s").map (fun q => (q.ordinals, q.olderCursor)) = some ([some 0, some 2], none)
  | _, _, _ => false

/-- An older page that was asked for before a re-page is put before the new projection: the item between is lost. -/
theorem older_page_makes_hole : ¬ AlwaysOneStream fun (_ : World Unit) _ => True := by
  intro h
  have hrun : (runFrom (conversationSystem Unit) World.init replacedRun).any makesHole = true := by decide +kernel
  obtain ⟨w, hw, hhole⟩ := (Option.any_eq_true _ _).mp hrun
  unfold makesHole at hhole
  split at hhole
  · rename_i t p v ht hp hv
    simp only [Bool.and_eq_true, decide_eq_true_eq] at hhole
    obtain ⟨⟨⟨hsession, hbasis⟩, hbefore⟩, hafter⟩ := hhole
    have hsame := h.current w lateAnswer v (steps_of_runFrom (fun _ _ _ => trivial) hw) trivial hv
      ⟨t, ht, .inr fun q hq => by
        rw [hsession, hp] at hq
        cases hq
        exact hbasis⟩
    rw [hsame, hp, Option.map_some, Option.some.injEq, hbefore] at hafter
    cases hafter
  · cases hhole

end AgentsRemember.Chats
