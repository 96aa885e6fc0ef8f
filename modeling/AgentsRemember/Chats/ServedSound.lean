import AgentsRemember.Chats.TasksSound

/-!
# The focused conversation is served

While a runtime's callback is between two of its parts the runtime itself may be
without a stream and without a page; everybody else is served throughout.
-/

namespace AgentsRemember.Chats

open Lib

variable {β : Type} {w v : World β} {s : String} {r i k : Nat}

/-- Unless its runtime is `x`: a focused conversation that has not failed has a controller, or a page on its way. -/
def ServedBut (x : Option Nat) (w : World β) : Prop :=
  ∀ s r p, x ≠ some r → w.focusedConversationId = some s → w.runtimeBySession s = some r → w.bySession s = some p →
    p.stream ≠ .projectionFailed → (w.runtimes r).controller ≠ none ∨ (w.runtimes r).pageInFlight = true

def GaveUp (w : World β) : Prop :=
  ∀ i t p, w.tasks i = some (.page t) → t.phase = .looped false false → w.runtimeBySession t.sessionId = some t.runtime →
    w.bySession t.sessionId = some p → p.stream = .projectionFailed

structure Sound (w : World β) : Prop where
  wired : Wired w
  served : ServedBut none w
  gaveUp : GaveUp w

variable {x : Option Nat}

theorem ServedBut.whole (h : ServedBut (some r) w) (hr : ∀ s, w.focusedConversationId = some s → w.runtimeBySession s ≠ some r) :
    ServedBut none w :=
  fun s r' p _ hf hreg => h s r' p (fun heq => hr s hf (Option.some.inj heq ▸ hreg)) hf hreg

theorem ServedBut.same (h : ServedBut x w) (hsame : SameWires w v)
    (hp : ∀ s p', v.bySession s = some p' → p'.stream ≠ .projectionFailed →
      (∃ p, w.bySession s = some p ∧ p.stream ≠ .projectionFailed) ∨
        ∀ r, w.runtimeBySession s = some r → x ≠ some r →
          (w.runtimes r).controller ≠ none ∨ (w.runtimes r).pageInFlight = true) : ServedBut x v := by
  intro s r p' hx hf hreg hp' hok
  rw [hsame.focused] at hf
  rw [hsame.registry] at hreg
  obtain ⟨-, -, hc, hb, -⟩ := hsame.runtimes r
  rw [hc, hb]
  rcases hp s p' hp' hok with ⟨p, hps, hpok⟩ | hbusy
  · exact h s r p hx hf hreg hps hpok
  · exact hbusy r hreg hx

theorem ServedBut.setProjection (h : ServedBut x w) (s : String) (p' : Projection β)
    (hp : p'.stream ≠ .projectionFailed → (∃ p, w.bySession s = some p ∧ p.stream ≠ .projectionFailed) ∨
      ∀ r, w.runtimeBySession s = some r → x ≠ some r →
        (w.runtimes r).controller ≠ none ∨ (w.runtimes r).pageInFlight = true) : ServedBut x (w.setProjection s (some p')) := by
  refine h.same (sameWires_setProjection w s p') fun s' q hq hok => ?_
  simp only [World.setProjection, Function.update_apply] at hq
  split at hq
  · rename_i heq
    cases hq
    exact heq ▸ hp hok
  · exact .inl ⟨q, hq, hok⟩

theorem ServedBut.setStreamPhase (h : ServedBut x w) (s : String) (phase : StreamPhase)
    (hp : phase ≠ .projectionFailed → ∀ r, w.runtimeBySession s = some r → x ≠ some r →
      (w.runtimes r).controller ≠ none ∨ (w.runtimes r).pageInFlight = true) : ServedBut x (w.setStreamPhase s phase) := by
  unfold World.setStreamPhase
  split
  · exact h.setProjection s _ fun hok => .inr (hp hok)
  · exact h

theorem left_out (hreg : w.runtimeBySession s = some r) {P : Nat → Prop} (r' : Nat) (hr' : w.runtimeBySession s = some r')
    (hne : some r ≠ some r') : P r' :=
  absurd (hreg.symm.trans hr') hne

theorem ServedBut.failStream (hw : Wired w) (h : ServedBut (some r) w) (hr : (w.runtimes r).sessionId = s) :
    ServedBut none (w.failStream s) := by
  have hkept : ServedBut (some r) (w.failStream s) := h.setStreamPhase s _ fun hne => absurd rfl hne
  have hsame := sameWires_setStreamPhase w s .projectionFailed
  intro s' r' p _ hf hreg hp hok
  refine hkept s' r' p (fun heq => ?_) hf hreg hp hok
  have hs : s' = s := by
    cases heq
    rw [World.failStream, hsame.registry] at hreg
    exact (hw.registered s' r hreg).2.symm.trans hr
  subst hs
  unfold World.failStream World.setStreamPhase at hp
  split at hp
  · simp only [World.setProjection, Function.update_self, Option.some.injEq] at hp
    subst hp
    exact hok rfl
  rename_i hnone
  rw [hnone] at hp
  cases hp

theorem ServedBut.applyInitial (h : ServedBut (some r) w) (hreg : w.runtimeBySession s = some r) (page : ConversationPage β) :
    ServedBut (some r) (w.applyInitial s page) :=
  h.setProjection s (((w.bySession s).getD (emptyProjection page.identity)).applyInitialPage page w.bases) fun _ =>
    .inr (left_out hreg)

theorem ServedBut.clearRecovery (h : ServedBut x w) (s : String) : ServedBut x (w.clearRecovery s) := by
  unfold World.clearRecovery
  split
  · rename_i p hp
    exact h.setProjection s _ fun hok => .inl ⟨p, hp, hok⟩
  · exact h

/-! ## Pages and streams that start -/

theorem ServedBut.startPage (h : ServedBut (some r) w) (kind : PageKind) (limit : Option Nat) :
    ServedBut none (w.startPage kind s r limit) := by
  have hrt : ∀ r', (w.startPage kind s r limit).runtimes r' = if r' = r then
      { w.runtimes r with pendingPageKind := some kind, pageAbortController := some w.nextSignal, pageInFlight := true }
      else w.runtimes r' := fun r' => Function.update_apply ..
  intro s' r' p _ hf hreg hp hok
  rw [hrt]
  split
  · exact .inr rfl
  · rename_i hne
    exact h s' r' p (fun heq => hne (Option.some.inj heq).symm) hf hreg hp hok

theorem ServedBut.hydrateAndStream (h : ServedBut (some r) w) (hreg : w.runtimeBySession s = some r) (limit : Option Nat) :
    ServedBut none (w.hydrateAndStream s r limit) :=
  (h.setStreamPhase s _ fun _ => left_out hreg).startPage _ _

theorem Wired.hydrateAndStream (h : Wired w) (hreg : w.runtimeBySession s = some r) (hfree : (w.runtimes r).pageInFlight = false)
    (hctl : (w.runtimes r).controller = none) (limit : Option Nat) : Wired (w.hydrateAndStream s r limit) := by
  have hsame := sameWires_setStreamPhase w s .connecting
  obtain ⟨-, -, hc, hb, -⟩ := hsame.runtimes r
  exact (h.same hsame).startPage (hsame.registry ▸ hreg) (hb.trans hfree) (hc.trans hctl) _ _

theorem ServedBut.stopRuntimeStream (h : ServedBut x w) (r : Nat) (hx : x = some r ∨ x = none) :
    ServedBut (some r) (w.stopRuntimeStream r) := by
  obtain ⟨hprojs, hfoc, hregs, -⟩ := stopRuntimeStream_rest w r
  intro s' r' p hr' hf hreg hp hok
  have hne : r' ≠ r := fun heq => hr' (heq ▸ rfl)
  rw [hfoc] at hf
  rw [hregs] at hreg
  rw [hprojs] at hp
  rw [stopRuntimeStream_runtimes, if_neg hne]
  refine h s' r' p (fun heq => ?_) hf hreg hp hok
  rcases hx with hx | hx
  · exact hr' (hx ▸ heq)
  · rw [hx] at heq
    cases heq

theorem Wired.repageAndResume (h : Wired w) (hreg : w.runtimeBySession s = some r) (limit : Option Nat) :
    Wired (w.repageAndResume s r limit) := by
  unfold World.repageAndResume
  split
  · exact h
  rename_i hfree
  obtain ⟨-, -, hregs, -⟩ := stopRuntimeStream_rest w r
  refine (h.stopRuntimeStream (h.registered s r hreg).1).startPage (hregs ▸ hreg) ?_ (stopRuntimeStream_controller w r) _ _
  rw [stopRuntimeStream_runtimes, if_pos rfl]
  exact Bool.not_eq_true _ ▸ hfree

theorem ServedBut.repageAndResume (h : ServedBut x w) (hx : x = some r ∨ x = none) (limit : Option Nat) :
    ServedBut none (w.repageAndResume s r limit) := by
  unfold World.repageAndResume
  split
  · rename_i hbusy
    intro s' r' p _ hf hreg hp hok
    by_cases heq : r' = r
    · exact .inr (heq ▸ hbusy)
    refine h s' r' p (fun hr => ?_) hf hreg hp hok
    rcases hx with hx | hx
    · exact heq (Option.some.inj (hr.symm.trans hx))
    · rw [hx] at hr
      cases hr
  · exact (h.stopRuntimeStream r hx).startPage _ _

theorem openNew_served (h : ServedBut (some r) w) : ServedBut none (openNew w s r) := by
  have hrt : ∀ r', (openNew w s r).runtimes r' =
      if r' = r then { w.runtimes r with controller := some w.nextStream } else w.runtimes r' := fun r' => Function.update_apply ..
  intro s' r' p _ hf hreg hp hok
  rw [hrt]
  split
  · exact .inl nofun
  · rename_i hne
    exact h s' r' p (fun heq => hne (Option.some.inj heq).symm) hf hreg hp hok

theorem ServedBut.startStream (hw : Wired w) (h : ServedBut (some r) w) (hs : (w.runtimes r).sessionId = s) :
    ServedBut none (w.startStream s r) := by
  cases hcan : w.runtimeCanStream s r with
  | false =>
    rw [startStream_of_not (.inl hcan)]
    refine h.whole fun s' hf hreg => ?_
    obtain ⟨hopen, hs'⟩ := hw.registered s' r hreg
    have hcan' : w.runtimeCanStream s r = true := canStream_iff.mpr ⟨hs'.symm.trans hs ▸ hf, hs'.symm.trans hs ▸ hreg, hopen⟩
    rw [hcan] at hcan'
    cases hcan'
  | true =>
    cases hfree : (w.runtimes r).pageInFlight with
    | true =>
      rw [startStream_of_not (.inr hfree)]
      intro s' r' p _ hf hreg hp hok
      by_cases heq : r' = r
      · exact .inr (heq ▸ hfree)
      · exact h s' r' p (fun hr => heq (Option.some.inj hr).symm) hf hreg hp hok
    | false =>
      rw [startStream_eq hcan hfree]
      exact openNew_served (h.stopRuntimeStream r (.inl rfl))

theorem streamIfFocused_eq (w : World β) (s : String) (r : Nat) : w.streamIfFocused s r = w.startStream s r := by
  unfold World.streamIfFocused
  split
  · rfl
  · rename_i hcan
    exact (startStream_of_not (.inl (Bool.not_eq_true _ ▸ hcan))).symm

theorem ServedBut.endPage (hw : Wired w) (h : ServedBut none w) {t : PageTask β} (ht : w.tasks i = some (.page t)) :
    ServedBut (some t.runtime) (w.endPage i t) := by
  intro s' r' p hr' hf hreg hp hok
  have hne : r' ≠ t.runtime := fun heq => hr' (heq ▸ rfl)
  rw [endPage_runtimes hw ht, if_neg hne]
  exact h s' r' p nofun hf hreg hp hok

/-! ## Re-pages that gave up -/

theorem GaveUp.same (h : GaveUp w) (htasks : v.tasks = w.tasks)
    (hreg : ∀ s r, v.runtimeBySession s = some r → w.runtimeBySession s = some r) (hprojs : v.bySession = w.bySession) :
    GaveUp v := by
  intro i t p ht hphase hr hp
  rw [htasks] at ht
  rw [hprojs] at hp
  exact h i t p ht hphase (hreg _ _ hr) hp

theorem GaveUp.setProjection (h : GaveUp w) (s : String) (p' : Projection β)
    (hp : p'.stream ≠ .projectionFailed → (∃ p, w.bySession s = some p ∧ p.stream ≠ .projectionFailed) ∨
      ∀ i t, w.tasks i = some (.page t) → w.runtimeBySession s = some t.runtime → t.phase ≠ .looped false false) :
    GaveUp (w.setProjection s (some p')) := by
  intro i t q ht hphase hreg hq
  simp only [World.setProjection, Function.update_apply] at hq
  split at hq
  · rename_i heq
    cases hq
    by_contra hok
    rcases hp hok with ⟨p, hps, hpok⟩ | hno
    · exact hpok (h i t p ht hphase hreg (heq ▸ hps))
    · exact hno i t ht (heq ▸ hreg) hphase
  · exact h i t q ht hphase hreg hq

theorem GaveUp.setStreamPhase (h : GaveUp w) (s : String) (phase : StreamPhase)
    (hp : phase ≠ .projectionFailed →
      ∀ i t, w.tasks i = some (.page t) → w.runtimeBySession s = some t.runtime → t.phase ≠ .looped false false) :
    GaveUp (w.setStreamPhase s phase) := by
  unfold World.setStreamPhase
  split
  · exact h.setProjection s _ fun hok => .inr (hp hok)
  · exact h

theorem Wired.no_task (h : Wired w) (hreg : w.runtimeBySession s = some r) (hfree : (w.runtimes r).pageInFlight = false)
    (i : Nat) (t : PageTask β) (ht : w.tasks i = some (.page t)) (hr : w.runtimeBySession s = some t.runtime) :
    t.phase ≠ .looped false false := by
  rw [hreg] at hr
  cases hr
  rw [(h.waiting i t ht).1] at hfree
  cases hfree

theorem GaveUp.clearRecovery (h : GaveUp w) (s : String) : GaveUp (w.clearRecovery s) := by
  unfold World.clearRecovery
  split
  · rename_i p hp
    exact h.setProjection s _ fun hok => .inl ⟨p, hp, hok⟩
  · exact h

theorem GaveUp.setTask (h : GaveUp w) (i : Nat) {u : Option (Task β)} (hu : ∀ t p, u = some (.page t) →
    t.phase = .looped false false → w.runtimeBySession t.sessionId = some t.runtime → w.bySession t.sessionId = some p →
      p.stream = .projectionFailed) : GaveUp (w.setTask i u) := by
  intro j t p ht hphase hreg hp
  simp only [World.setTask, Function.update_apply] at ht
  split at ht
  · exact hu t p ht hphase hreg hp
  · exact h j t p ht hphase hreg hp

theorem attempt_phase (w : World β) (t : PageTask β) : (w.attempt t).phase ≠ .looped false false := by
  unfold World.attempt
  dsimp only
  split <;> exact nofun

theorem GaveUp.startPage (h : GaveUp w) (kind : PageKind) (limit : Option Nat) : GaveUp (w.startPage kind s r limit) := by
  have hset : GaveUp ((w.setRuntime r fun runtime => { runtime with
      pendingPageKind := some kind
      pageAbortController := some w.nextSignal
      pageInFlight := true })) := h.same rfl (fun _ _ hr => hr) rfl
  intro i t p ht hphase hreg hp
  unfold World.startPage World.startTask World.setTask at ht
  simp only [Function.update_apply] at ht
  split at ht
  · cases ht
    exact absurd hphase (attempt_phase _ _)
  · exact hset i t p ht hphase hreg hp

theorem GaveUp.hydrateAndStream (h : GaveUp w) (hw : Wired w) (hreg : w.runtimeBySession s = some r)
    (hfree : (w.runtimes r).pageInFlight = false) (limit : Option Nat) : GaveUp (w.hydrateAndStream s r limit) :=
  (h.setStreamPhase s _ fun _ => hw.no_task hreg hfree).startPage _ _

theorem GaveUp.stopRuntimeStream (h : GaveUp w) (r : Nat) : GaveUp (w.stopRuntimeStream r) := by
  obtain ⟨hprojs, -, hregs, -, -, htasks, -⟩ := stopRuntimeStream_rest w r
  exact h.same htasks (fun _ _ hr => hregs ▸ hr) hprojs

theorem GaveUp.repageAndResume (h : GaveUp w) (limit : Option Nat) : GaveUp (w.repageAndResume s r limit) := by
  unfold World.repageAndResume
  split
  · exact h
  · exact (h.stopRuntimeStream r).startPage _ _

theorem GaveUp.startStream (h : GaveUp w) (s : String) (r : Nat) : GaveUp (w.startStream s r) := by
  unfold World.startStream World.stopController
  split
  · exact h
  · dsimp only
    split <;> exact h

end AgentsRemember.Chats
