import AgentsRemember.Chats.ServedSound

/-!
# One stream, and nobody stranded

Every call and every callback keeps the wires together and the focused
conversation served. A page that comes back to a runtime which was replaced
meanwhile is the exception, and left out here.
-/

namespace AgentsRemember.Chats

open Lib

variable {β : Type} {w v : World β} {s : String} {r i k : Nat} {x : Option Nat}

/-! ## Calls -/

theorem servedBut_of_focused (hf : w.focusedConversationId = some s) (hreg : w.runtimeBySession s = some r) :
    ServedBut (some r) w := by
  intro s' r' p hne hf' hreg'
  rw [hf] at hf'
  cases hf'
  rw [hreg] at hreg'
  exact absurd hreg' hne

theorem resumeFocused_sound (h : Wired w) (hg : GaveUp w) (hf : w.focusedConversationId = some s) :
    Sound (w.resumeFocused s) := by
  unfold World.resumeFocused
  split
  · rename_i r p hreg hp
    have hbut : ServedBut (some r) w := servedBut_of_focused hf hreg
    have hs := (h.registered s r hreg).2
    dsimp only
    split
    · rename_i hbusy
      refine ⟨h, fun s' r' p' _ hf' hreg' hp' hok => ?_, hg⟩
      rw [hf] at hf'
      cases hf'
      rw [hreg] at hreg'
      cases hreg'
      rw [hp] at hp'
      cases hp'
      rcases hbusy with hfail | hctl | hpage
      · exact absurd hfail hok
      · exact .inl hctl
      · exact .inr hpage
    · rename_i hidle
      simp only [not_or, Decidable.not_not, Bool.not_eq_true] at hidle
      obtain ⟨-, hctl, hfree⟩ := hidle
      split
      · exact ⟨h.hydrateAndStream hreg hfree hctl _, hbut.hydrateAndStream hreg _, hg.hydrateAndStream h hreg hfree _⟩
      · exact ⟨h.repageAndResume hreg _, hbut.repageAndResume (.inl rfl) _, hg.repageAndResume _⟩
      · exact ⟨h.startStream s r, hbut.startStream h hs, hg.startStream s r⟩
  · rename_i hnone
    refine ⟨h, fun s' r' p' _ hf' hreg' hp' _ => ?_, hg⟩
    rw [hf] at hf'
    cases hf'
    exact (hnone r' p' hreg' hp').elim

theorem focusConversation_sound (h : Wired w) (hg : GaveUp w) (focus : Option String) : Sound (w.focusConversation focus) := by
  have hsel := h.select focus
  obtain ⟨hf, hprojs, hregs, -, htasks, -⟩ := selectFocusedConversation_rest w focus
  have hgs : GaveUp (w.selectFocusedConversation focus) := hg.same htasks (fun _ _ hr => hregs ▸ hr) hprojs
  unfold World.focusConversation
  cases focus with
  | none =>
    refine ⟨hsel, fun s' r' p' _ hf' => ?_, hgs⟩
    rw [hf] at hf'
    cases hf'
  | some s => exact resumeFocused_sound hsel hgs hf

theorem disconnectConversation_rest (w : World β) (s : String) : (w.disconnectConversation s).bySession = w.bySession ∧
    (w.disconnectConversation s).tasks = w.tasks ∧ (w.disconnectConversation s).bases = w.bases := by
  unfold World.disconnectConversation
  split
  · exact ⟨rfl, rfl, rfl⟩
  unfold World.abortPage World.stopRuntimeStream World.stopController
  dsimp only
  split <;> split <;> exact ⟨rfl, rfl, rfl⟩

theorem disconnectConversation_before (w : World β) (s : String) {s' : String} {r' : Nat}
    (hreg : (w.disconnectConversation s).runtimeBySession s' = some r') : s' ≠ s ∧ w.runtimeBySession s' = some r' ∧
      ((w.disconnectConversation s).focusedConversationId = some s' → w.focusedConversationId = some s') := by
  have hs' : s' ≠ s := by
    intro heq
    rw [heq, disconnectConversation_unregistered] at hreg
    cases hreg
  refine ⟨hs', ?_⟩
  cases hs : w.runtimeBySession s with
  | none =>
    unfold World.disconnectConversation at hreg ⊢
    rw [hs] at hreg ⊢
    exact ⟨hreg, id⟩
  | some r =>
    have hsame := sameWires_abortPage (w.stopRuntimeStream r) r
    obtain ⟨-, hfoc, hregs, -⟩ := stopRuntimeStream_rest w r
    rw [disconnectConversation_eq hs] at hreg ⊢
    unfold unregister at hreg ⊢
    dsimp only at hreg ⊢
    rw [Function.update_of_ne hs', hsame.registry, hregs] at hreg
    rw [hsame.focused, hfoc]
    refine ⟨hreg, fun hf => ?_⟩
    split at hf
    · cases hf
    · exact hf

theorem GaveUp.disconnect (h : GaveUp w) (s : String) : GaveUp (w.disconnectConversation s) := by
  obtain ⟨hprojs, htasks, -⟩ := disconnectConversation_rest w s
  exact h.same htasks (fun _ _ hr => (disconnectConversation_before w s hr).2.1) hprojs

theorem GaveUp.evict (h : GaveUp w) (s : String) : GaveUp (w.evict s) := by
  intro i t p ht hphase hreg hp
  simp only [World.evict, World.setProjection, Function.update_apply] at hp
  split at hp
  · cases hp
  · exact h i t p ht hphase hreg hp

theorem GaveUp.enforceLru (h : GaveUp w) (s : String) : GaveUp (w.enforceLru s) :=
  enforceLru_rule (fun _ id hw _ => (hw.disconnect id).evict id) h

theorem GaveUp.register (h : GaveUp w) (hw : Wired w) (s epoch : String) (limit : Option Nat) :
    GaveUp ((w.disposeExisting s).register s epoch limit) := by
  obtain ⟨-, hregs, hnext, -, htasks, -, hprojs, -⟩ := disposeExisting_rest w s
  intro i t p ht hphase hreg hp
  have ht' : w.tasks i = some (.page t) := htasks ▸ ht
  have hp' : w.bySession t.sessionId = some p := hprojs ▸ hp
  unfold World.register at hreg
  simp only [Function.update_apply, hregs, hnext] at hreg
  split at hreg
  · -- The new runtime has no task yet.
    have hbusy := (hw.waiting i t ht').1
    rw [← Option.some.inj hreg, (hw.unmade _ le_rfl).2] at hbusy
    cases hbusy
  · exact h i t p ht' hphase hreg hp'

theorem connectConversation_sound (h : Wired w) (hg : GaveUp w) (s epoch : String) (limit : Option Nat) :
    Sound (w.connectConversation s epoch limit) := by
  have hsel := h.select (some s)
  obtain ⟨hfoc, hprojs, hregs, -, htasks, -⟩ := selectFocusedConversation_rest w (some s)
  have hgs : GaveUp (w.selectFocusedConversation (some s)) := hg.same htasks (fun _ _ hr => hregs ▸ hr) hprojs
  unfold World.connectConversation
  dsimp only
  generalize w.selectFocusedConversation (some s) = u at hsel hfoc hgs
  obtain ⟨hfocus, -⟩ := disposeExisting_rest u s
  have hwired := hsel.register hfoc epoch limit
  have hreg : ((u.disposeExisting s).register s epoch limit).runtimeBySession s = some (u.disposeExisting s).nextRuntime :=
    Function.update_self ..
  obtain ⟨hfoc', hreg', hrt⟩ := enforceLru_kept hwired (hfocus.trans hfoc) hreg
  have hnew : ((u.disposeExisting s).register s epoch limit).runtimes (u.disposeExisting s).nextRuntime =
      (u.disposeExisting s).makeRuntime s epoch limit := Function.update_self ..
  rw [hnew] at hrt
  have hfree : (((u.disposeExisting s).register s epoch limit).enforceLru s |>.runtimes
      (u.disposeExisting s).nextRuntime).pageInFlight = false := by
    rw [hrt]
    rfl
  refine ⟨(hwired.enforceLru s).hydrateAndStream hreg' hfree (by rw [hrt]; rfl) limit,
    (servedBut_of_focused hfoc' hreg').hydrateAndStream hreg' limit, ?_⟩
  exact ((hgs.register hsel s epoch limit).enforceLru s).hydrateAndStream (hwired.enforceLru s) hreg' hfree limit

theorem touchConversation_sound (h : Wired w) (hg : GaveUp w) (s : String) : Sound (w.touchConversation s) := by
  have htouch : Wired { w with touchOrder := touch w.touchOrder s } :=
    { h with }
  have hgs : GaveUp { w with touchOrder := touch w.touchOrder s } := hg
  exact focusConversation_sound (htouch.enforceLru s) (hgs.enforceLru s) (some s)

theorem Sound.disconnect (h : Sound w) (s : String) : Sound (w.disconnectConversation s) := by
  refine ⟨h.wired.disconnect s, fun s' r' p' _ hf hreg hp hok => ?_, h.gaveUp.disconnect s⟩
  rw [(disconnectConversation_rest w s).1] at hp
  obtain ⟨hs', hreg', hfocus⟩ := disconnectConversation_before w s hreg
  rw [(disconnectConversation_other h.wired hs' (hfocus hf) hreg').2.2]
  exact h.served s' r' p' nofun (hfocus hf) hreg' hp hok

theorem Sound.loadOlder (h : Sound w) (s : String) : Sound (w.loadOlderConversation s) := by
  unfold World.loadOlderConversation
  split
  · rename_i r p hreg hp
    split
    · exact ⟨h.wired.startOlder hreg (by rw [hp]; rfl), h.served, h.gaveUp.setTask _ fun _ _ hu => (by cases hu)⟩
    · exact h
  · exact h

theorem Sound.reset (h : Sound w) : Sound w.reset :=
  ⟨h.wired.reset, fun _ _ _ _ hf => (by cases hf), fun _ _ _ _ _ hreg => (by cases hreg)⟩

/-! ## Page tasks -/

theorem ServedBut.unfocused (hw : Wired w) (h : ServedBut (some r) w) (hs : (w.runtimes r).sessionId = s)
    (hcan : w.runtimeCanStream s r = false) : ServedBut none w := by
  have hserved := h.startStream hw hs
  rwa [startStream_of_not (.inl hcan)] at hserved

theorem Sound.setRuntime (h : Sound w) (r : Nat) (f : SessionRuntime → SessionRuntime)
    (hf : ∀ x, (f x).sessionId = x.sessionId ∧ (f x).disposed = x.disposed ∧ (f x).controller = x.controller ∧
      (f x).pageInFlight = x.pageInFlight ∧ (f x).pageAbortController = x.pageAbortController) : Sound (w.setRuntime r f) :=
  let hsame := sameWires_setRuntime w r f hf
  ⟨h.wired.same hsame, h.served.same hsame fun _ p' hp' hne => .inl ⟨p', hp', hne⟩, h.gaveUp⟩

variable {t : PageTask β}

theorem Sound.replacePage (h : Sound w) {t' : PageTask β} (ht : w.tasks i = some (.page t))
    (hr : t'.runtime = t.runtime) (hs : t'.sessionId = t.sessionId) (hsig : t'.signal = t.signal)
    (hphase : t'.phase ≠ .looped false false) : Sound (w.setTask i (some (.page t'))) :=
  ⟨h.wired.replacePage ht hr hs hsig, h.served, h.gaveUp.setTask i fun _ _ hu hup => (by cases hu; exact absurd hup hphase)⟩

structure Ended (w : World β) (s : String) (r : Nat) : Prop where
  wired : Wired w
  served : ServedBut (some r) w
  gaveUp : GaveUp w
  session : (w.runtimes r).sessionId = s
  free : (w.runtimes r).pageInFlight = false

theorem Sound.endPage (h : Sound w) (ht : w.tasks i = some (.page t)) :
    Ended (w.endPage i t) t.sessionId t.runtime := by
  have hrt := endPage_runtimes h.wired ht t.runtime
  rw [if_pos rfl] at hrt
  have hgone : GaveUp (w.setTask i none) := h.gaveUp.setTask i fun _ _ hu => (by cases hu)
  refine ⟨h.wired.endPage ht, h.served.endPage h.wired ht, hgone.same rfl (fun _ _ hr => hr) rfl, ?_, ?_⟩
  · rw [hrt]
    exact (h.wired.waiting i t ht).2.2
  · rw [hrt]

theorem Ended.clearPending (h : Ended w s r) : Ended (w.clearPending r) s r := by
  have hsame := sameWires_clearPending w r
  refine ⟨h.wired.same hsame, h.served.same hsame fun _ p' hp' hne => .inl ⟨p', hp', hne⟩, h.gaveUp.same rfl (fun _ _ hr => hr) rfl,
    (hsame.runtimes r).1.trans h.session, (hsame.runtimes r).2.2.2.1.trans h.free⟩

theorem Ended.startStream (h : Ended w s r) : Sound (w.startStream s r) :=
  ⟨h.wired.startStream s r, h.served.startStream h.wired h.session, h.gaveUp.startStream s r⟩

theorem Ended.failStream (h : Ended w s r) : Sound (w.failStream s) :=
  ⟨h.wired.same (sameWires_setStreamPhase w s _), h.served.failStream h.wired h.session,
    h.gaveUp.setStreamPhase s _ fun hne => absurd rfl hne⟩

theorem Ended.unfocused (h : Ended w s r) (hcan : w.runtimeCanStream s r = false) : Sound w :=
  ⟨h.wired, h.served.unfocused h.wired h.session hcan, h.gaveUp⟩

theorem Ended.failed (h : Ended w s r) (hfail : w.runtimeBySession s = some r →
    ∀ p, w.bySession s = some p → p.stream = .projectionFailed) : Sound w := by
  refine ⟨h.wired, fun s' r' p _ hf hreg hp hok => h.served s' r' p (fun heq => ?_) hf hreg hp hok, h.gaveUp⟩
  cases heq
  have hs : s' = s := (h.wired.registered s' r hreg).2.symm.trans h.session
  subst hs
  exact hok (hfail hreg p hp)

theorem Ended.applyInitial (h : Ended w s r) (hreg : w.runtimeBySession s = some r) (page : ConversationPage β) :
    Ended (w.applyInitial s page) s r := by
  have hsame := sameWires_applyInitial w s page
  refine ⟨h.wired.same hsame, h.served.applyInitial hreg page, ?_, (hsame.runtimes r).1.trans h.session,
    (hsame.runtimes r).2.2.2.1.trans h.free⟩
  exact h.gaveUp.setProjection s (((w.bySession s).getD (emptyProjection page.identity)).applyInitialPage page w.bases) fun _ =>
    .inr (h.wired.no_task hreg h.free)

theorem Sound.hydrated (h : Sound w) (ht : w.tasks i = some (.page t)) (page : Option (PageResult β))
    (hok : ∀ p, page = some (.ok p) → w.runtimeBySession t.sessionId = some t.runtime) :
    Sound (w.hydrated i t page) := by
  have hend := h.endPage ht
  unfold World.hydrated
  dsimp only
  split
  · split
    · rename_i hcan
      obtain ⟨-, hreg, hopen⟩ := canStream_iff.mp hcan
      have hrt := endPage_runtimes h.wired ht t.runtime
      rw [if_pos rfl] at hrt
      have hctl : ((w.endPage i t).runtimes t.runtime).controller = none := by
        rw [hrt] at hopen ⊢
        exact h.wired.no_controller hopen (h.wired.waiting i t ht).1
      exact ⟨hend.wired.hydrateAndStream hreg hend.free hctl _, hend.served.hydrateAndStream hreg _,
        hend.gaveUp.hydrateAndStream hend.wired hreg hend.free _⟩
    · rename_i hcan
      exact hend.unfocused (Bool.not_eq_true _ ▸ hcan)
  · rename_i p
    have hreg : ((w.endPage i t).clearPending t.runtime).runtimeBySession t.sessionId = some t.runtime := hok p rfl
    rw [streamIfFocused_eq]
    exact (hend.clearPending.applyInitial hreg p).startStream
  · exact hend.clearPending.failStream

theorem Sound.repaged (h : Sound w) (ht : w.tasks i = some (.page t)) (hphase : t.phase ≠ .looped false false)
    (page : Option (PageResult β)) (hok : ∀ p, page = some (.ok p) → w.runtimeBySession t.sessionId = some t.runtime) :
    Sound (w.repaged i t page) := by
  have hbusy := (h.wired.waiting i t ht).1
  unfold World.repaged
  split
  · exact h.replacePage ht rfl rfl rfl nofun
  · rename_i p
    have hreg := hok p rfl
    have hinit := sameWires_applyInitial w t.sessionId p
    have hclear := sameWires_clearRecovery (w.applyInitial t.sessionId p) t.sessionId
    have hserved : ServedBut none (w.applyInitial t.sessionId p) :=
      h.served.setProjection t.sessionId (((w.bySession t.sessionId).getD (emptyProjection p.identity)).applyInitialPage p w.bases)
        fun _ => .inr fun r hr _ => .inr (by
          rw [hreg] at hr
          cases hr
          exact hbusy)
    have hgave : GaveUp (w.applyInitial t.sessionId p) :=
      h.gaveUp.setProjection t.sessionId (((w.bySession t.sessionId).getD (emptyProjection p.identity)).applyInitialPage p w.bases)
        fun _ => .inr fun j u hu hr => by
          rw [hreg] at hr
          cases h.wired.single i j t u ht hu (Option.some.inj hr)
          rw [ht] at hu
          cases hu
          exact hphase
    have hsound : Sound (w.applyRecoveredPage t.sessionId p) :=
      ⟨(h.wired.same hinit).same hclear, hserved.clearRecovery t.sessionId, hgave.clearRecovery t.sessionId⟩
    have ht' : (w.applyRecoveredPage t.sessionId p).tasks i = some (.page t) :=
      (congrFun (hclear.tasks.trans hinit.tasks) i).trans ht
    exact hsound.replacePage ht' rfl rfl rfl nofun
  · split
    · have hcount := h.setRuntime t.runtime (fun runtime => { runtime with streamRecoveries := runtime.streamRecoveries + 1 })
        fun _ => ⟨rfl, rfl, rfl, rfl, rfl⟩
      exact hcount.replacePage ht rfl rfl rfl (attempt_phase _ t)
    have hsame := sameWires_setStreamPhase w t.sessionId .projectionFailed
    have hsound : Sound (w.failStream t.sessionId) :=
      ⟨h.wired.same hsame, h.served.setStreamPhase _ _ fun hne => absurd rfl hne,
        h.gaveUp.setStreamPhase _ _ fun hne => absurd rfl hne⟩
    have ht' : (w.failStream t.sessionId).tasks i = some (.page t) := (congrFun hsame.tasks i).trans ht
    refine ⟨hsound.wired.replacePage ht' rfl rfl rfl, hsound.served, hsound.gaveUp.setTask i fun u p hu _ _ hp => ?_⟩
    cases hu
    unfold World.failStream World.setStreamPhase at hp
    split at hp
    · simp only [World.setProjection, Function.update_self, Option.some.injEq] at hp
      rw [← hp]
    rename_i hnone
    rw [hnone] at hp
    cases hp

theorem Sound.repageDone (h : Sound w) (ht : w.tasks i = some (.page t)) {recovered cancelled : Bool}
    (hphase : t.phase = .looped recovered cancelled) : Sound (w.repageDone i t recovered cancelled) := by
  have hend := h.endPage ht
  unfold World.repageDone
  dsimp only
  split
  · rename_i hcan
    obtain ⟨-, hreg, -⟩ := canStream_iff.mp (Bool.and_eq_true_iff.mp hcan).2
    exact ⟨hend.wired.repageAndResume hreg _, hend.served.repageAndResume (.inl rfl) _, hend.gaveUp.repageAndResume _⟩
  rename_i hcan
  cases cancelled with
  | true =>
    rw [Bool.true_and, Bool.not_eq_true] at hcan
    rw [if_pos rfl]
    have hsound := hend.unfocused hcan
    split
    · rw [streamIfFocused_eq, startStream_of_not (.inl hcan)]
      exact hsound
    · exact hsound
  | false =>
    rw [if_neg Bool.false_ne_true]
    have hpend := hend.clearPending
    split
    · rw [streamIfFocused_eq]
      exact hpend.startStream
    rename_i hrec
    rw [Bool.not_eq_true] at hrec
    subst hrec
    exact hpend.failed fun hreg p hp => h.gaveUp i t p ht hphase hreg hp

end AgentsRemember.Chats

/-! ## Older pages and stream events

A source reports only for the focused session's runtime, which has a controller
then; an older page changes no phase of the stream.
-/

namespace AgentsRemember.Chats

open Lib

variable {β : Type} {w v : World β} {s : String} {r i k : Nat}

theorem Sound.olderTaken (h : Sound w) {t : OlderTask} (ht : w.tasks i = some (.older t)) (page : PageResult β) :
    Sound (w.olderTaken i t page) := by
  have hend : Sound (w.setTask i none) := ⟨h.wired.endOlder ht, h.served, h.gaveUp.setTask i fun _ _ hu => (by cases hu)⟩
  unfold World.olderTaken
  cases page with
  | failed _ => exact hend
  | ok page =>
    dsimp only
    split
    · exact hend
    rename_i hopen
    obtain ⟨p, hp⟩ := Option.isSome_iff_exists.mp ((h.wired.older i t ht).2.2 (Bool.not_eq_true _ ▸ hopen))
    have hp' : (w.setTask i none).bySession t.sessionId = some p := hp
    have hsame := sameWires_applyOlder (w.setTask i none) t.sessionId page
    have hphase : ((((w.setTask i none).bySession t.sessionId).getD (emptyProjection page.identity)).applyOlderPage page).stream =
        p.stream := by
      rw [hp']
      rfl
    have hkept : ∀ q : Projection β, q.stream = p.stream → q.stream ≠ .projectionFailed →
        ∃ p, (w.setTask i none).bySession t.sessionId = some p ∧ p.stream ≠ .projectionFailed :=
      fun q hq hne => ⟨p, hp', hq ▸ hne⟩
    exact ⟨hend.wired.same hsame, hend.served.setProjection t.sessionId _ fun hne => .inl (hkept _ hphase hne),
      hend.gaveUp.setProjection t.sessionId _ fun hne => .inl (hkept _ hphase hne)⟩

/-! ## A stream that reports -/

structure Reporting (w : World β) (s : String) (r k : Nat) : Prop extends Sound w where
  streams : (w.streams k).sessionId = s ∧ (w.streams k).runtime = r ∧ (w.streams k).stopped = false

theorem Reporting.registered (h : Reporting w s r k) : w.runtimeBySession s = some r := by
  obtain ⟨hs, hr, hstop⟩ := h.streams
  have hreg := (canStream_iff.mp (h.wired.streaming k hstop).1).2.1
  rwa [hs, hr] at hreg

theorem Reporting.controller (h : Reporting w s r k) : (w.runtimes r).controller = some k := by
  obtain ⟨-, hr, hstop⟩ := h.streams
  have hctl := (h.wired.streaming k hstop).2.1
  rwa [hr] at hctl

theorem Reporting.free (h : Reporting w s r k) : (w.runtimes r).pageInFlight = false := by
  obtain ⟨-, hr, hstop⟩ := h.streams
  have hfree := (h.wired.streaming k hstop).2.2
  rwa [hr] at hfree

theorem Sound.reporting (h : Sound w) (hk : (w.streams k).stopped = false) :
    Reporting w (w.streams k).sessionId (w.streams k).runtime k := ⟨h, rfl, rfl, hk⟩

theorem Reporting.setProjection (h : Reporting w s r k) (p : Projection β) : Reporting (w.setProjection s (some p)) s r k := by
  refine ⟨⟨h.wired.same (sameWires_setProjection w s p), h.served.setProjection s p fun _ => .inr fun r' hr' _ => ?_,
    h.gaveUp.setProjection s p fun _ => .inr (h.wired.no_task h.registered h.free)⟩, h.streams⟩
  rw [h.registered] at hr'
  cases hr'
  exact .inl (by rw [h.controller]; exact nofun)

theorem Reporting.setStreamPhase (h : Reporting w s r k) (phase : StreamPhase) : Reporting (w.setStreamPhase s phase) s r k := by
  unfold World.setStreamPhase
  split
  · exact h.setProjection _
  · exact h

theorem Reporting.ingestEvent [DecidableEq β] (h : Reporting w s r k) (envelope : ConversationEventEnvelope β) :
    Reporting (w.ingestEvent s envelope) s r k := by
  unfold World.ingestEvent
  split
  · rename_i next _
    obtain ⟨hsound, hstreams⟩ := h.setProjection next
    exact ⟨⟨hsound.wired.same ⟨rfl, rfl, rfl, rfl, rfl, rfl, rfl, fun _ => ⟨rfl, rfl, rfl, rfl, rfl⟩, fun _ hs => hs⟩,
      hsound.served, hsound.gaveUp⟩, hstreams⟩
  · exact h

theorem Reporting.setRuntime (h : Reporting w s r k) (f : SessionRuntime → SessionRuntime)
    (hf : ∀ x, (f x).sessionId = x.sessionId ∧ (f x).disposed = x.disposed ∧ (f x).controller = x.controller ∧
      (f x).pageInFlight = x.pageInFlight ∧ (f x).pageAbortController = x.pageAbortController) :
    Reporting (w.setRuntime r f) s r k := ⟨h.toSound.setRuntime r f hf, h.streams⟩

theorem Reporting.setStream (h : Reporting w s r k) (f : StreamRuntime → StreamRuntime)
    (hf : ∀ x, (f x).sessionId = x.sessionId ∧ (f x).runtime = x.runtime ∧ (f x).stopped = x.stopped) :
    Reporting (w.setStream k f) s r k := by
  obtain ⟨hs, hr, hstop⟩ := h.streams
  refine ⟨⟨h.wired.setStream hstop f hf, h.served, h.gaveUp⟩, ?_⟩
  obtain ⟨hs', hr', hstop'⟩ := hf (w.streams k)
  unfold World.setStream
  simp only [Function.update_self]
  exact ⟨hs'.trans hs, hr'.trans hr, hstop'.trans hstop⟩

theorem Reporting.repageAndResume (h : Reporting w s r k) (limit : Option Nat) : Sound (w.repageAndResume s r limit) :=
  ⟨h.wired.repageAndResume h.registered limit, h.served.repageAndResume (.inr rfl) limit, h.gaveUp.repageAndResume limit⟩

theorem Reporting.onOpen (h : Reporting w s r k) : Sound (w.onOpen s r) := by
  unfold World.onOpen
  split
  · exact h.toSound
  have hopened := h.setRuntime (fun runtime => { runtime with openFailures := 0, streamRecoveries := 0 })
    fun _ => ⟨rfl, rfl, rfl, rfl, rfl⟩
  exact (hopened.setStreamPhase .live).toSound

theorem Reporting.onDisconnect (h : Reporting w s r k) : Reporting (w.onDisconnect s r) s r k := by
  unfold World.onDisconnect
  split
  · exact h.setStreamPhase .reconnecting
  · exact h

theorem Reporting.stopAndFail (h : Reporting w s r k) : Sound ((w.stopRuntimeStream r).failStream s) := by
  obtain ⟨hopen, hsession⟩ := h.wired.registered s r h.registered
  have hrt := stopRuntimeStream_runtimes w r r
  rw [if_pos rfl] at hrt
  have hended : Ended (w.stopRuntimeStream r) s r :=
    ⟨h.wired.stopRuntimeStream hopen, h.served.stopRuntimeStream r (.inr rfl), h.gaveUp.stopRuntimeStream r,
      by rw [hrt]; exact hsession, by rw [hrt]; exact h.free⟩
  exact hended.failStream

theorem Reporting.onOpenFailure (h : Reporting w s r k) : Sound (w.onOpenFailure s r) := by
  unfold World.onOpenFailure
  split
  · exact h.toSound
  have hfailed := h.setRuntime (fun runtime => { runtime with openFailures := runtime.openFailures + 1 })
    fun _ => ⟨rfl, rfl, rfl, rfl, rfl⟩
  dsimp only
  split
  · exact hfailed.toSound
  have hreset := hfailed.setRuntime (fun runtime => { runtime with openFailures := 0 }) fun _ => ⟨rfl, rfl, rfl, rfl, rfl⟩
  split
  · exact hreset.stopAndFail
  · exact (hreset.setRuntime (fun runtime => { runtime with streamRecoveries := runtime.streamRecoveries + 1 })
      fun _ => ⟨rfl, rfl, rfl, rfl, rfl⟩).repageAndResume _

theorem Reporting.onEnvelope [DecidableEq β] (h : Reporting w s r k) (envelope : ConversationEventEnvelope β) :
    Sound (w.onEnvelope s r envelope) := by
  unfold World.onEnvelope
  split
  · exact h.toSound
  have hing := h.ingestEvent envelope
  dsimp only
  split
  · exact hing.repageAndResume _
  · exact hing.toSound

theorem Reporting.deadInstance (h : Reporting w (w.streams k).sessionId (w.streams k).runtime k) (openedThisInstance : Bool) :
    Sound (w.deadInstance k openedThisInstance) := by
  have hclosed := (h.setStream (fun stream => { stream with source := none }) fun _ => ⟨rfl, rfl, rfl⟩).onDisconnect
  unfold World.deadInstance
  dsimp only
  generalize (w.setStream k fun stream => { stream with source := none }).onDisconnect (w.streams k).sessionId
    (w.streams k).runtime = u at hclosed
  have hhandled : Sound (if openedThisInstance = true then u else u.onOpenFailure (w.streams k).sessionId (w.streams k).runtime) := by
    split
    · exact hclosed.toSound
    · exact hclosed.onOpenFailure
  generalize (if openedThisInstance = true then u else u.onOpenFailure (w.streams k).sessionId (w.streams k).runtime) = v
    at hhandled
  split
  · exact hhandled
  rename_i hstop
  have hwaits := hhandled.wired.setStream (k := k) (Bool.not_eq_true _ ▸ hstop) (fun stream => { stream with timer := true })
    fun _ => ⟨rfl, rfl, rfl⟩
  exact ⟨hwaits, hhandled.served, hhandled.gaveUp⟩

end AgentsRemember.Chats
