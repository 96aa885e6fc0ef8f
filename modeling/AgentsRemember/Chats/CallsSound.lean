import AgentsRemember.Chats.World

/-!
# Runtimes, streams and page tasks fit together

An undisposed runtime is the registered one of its session, a controller that
was not stopped is that of the focused session's runtime, and the page's place
of a runtime is held by one task. Every call and every callback keeps this.
-/

namespace AgentsRemember.Chats

open Lib

variable {β : Type}

structure Wired (w : World β) : Prop where
  registered : ∀ s r, w.runtimeBySession s = some r → (w.runtimes r).disposed = false ∧ (w.runtimes r).sessionId = s
  undisposed : ∀ r, (w.runtimes r).disposed = false → w.runtimeBySession (w.runtimes r).sessionId = some r
  unmade : ∀ r, w.nextRuntime ≤ r → (w.runtimes r).disposed = true ∧ (w.runtimes r).pageInFlight = false
  controlled : ∀ r k, (w.runtimes r).disposed = false → (w.runtimes r).controller = some k →
    (w.streams k).stopped = false ∧ (w.streams k).runtime = r ∧ (w.streams k).sessionId = (w.runtimes r).sessionId
  streaming : ∀ k, (w.streams k).stopped = false →
    w.runtimeCanStream (w.streams k).sessionId (w.streams k).runtime = true ∧
      (w.runtimes (w.streams k).runtime).controller = some k ∧ (w.runtimes (w.streams k).runtime).pageInFlight = false
  closed : ∀ k, (w.streams k).stopped = true → (w.streams k).source = none ∧ (w.streams k).timer = false
  unopened : ∀ k, w.nextStream ≤ k → (w.streams k).stopped = true
  waiting : ∀ i t, w.tasks i = some (.page t) → (w.runtimes t.runtime).pageInFlight = true ∧
    (w.runtimes t.runtime).pageAbortController = some t.signal ∧ (w.runtimes t.runtime).sessionId = t.sessionId
  single : ∀ i j t t', w.tasks i = some (.page t) → w.tasks j = some (.page t') → t.runtime = t'.runtime → i = j
  inFlight : ∀ r, (w.runtimes r).pageInFlight = true → ∃ i t, w.tasks i = some (.page t) ∧ t.runtime = r
  unstarted : ∀ i, w.nextTask ≤ i → w.tasks i = none
  older : ∀ i t, w.tasks i = some (.older t) → t.runtime < w.nextRuntime ∧ (w.runtimes t.runtime).sessionId = t.sessionId ∧
    ((w.runtimes t.runtime).disposed = false → (w.bySession t.sessionId).isSome = true)

variable {w v : World β} {s : String} {r : Nat}

theorem canStream_iff : w.runtimeCanStream s r = true ↔
    w.focusedConversationId = some s ∧ w.runtimeBySession s = some r ∧ (w.runtimes r).disposed = false := by
  simp only [World.runtimeCanStream, Bool.and_eq_true, Bool.not_eq_true', decide_eq_true_eq, and_assoc]

theorem Wired.no_controller (h : Wired w) (hd : (w.runtimes r).disposed = false) (hp : (w.runtimes r).pageInFlight = true) :
    (w.runtimes r).controller = none := by
  cases hc : (w.runtimes r).controller with
  | none => rfl
  | some k =>
    obtain ⟨hopen, hr, -⟩ := h.controlled r k hd hc
    have hfree := (h.streaming k hopen).2.2
    rw [hr, hp] at hfree
    cases hfree

/-! ## What leaves the wires alone -/

structure SameWires (w v : World β) : Prop where
  focused : v.focusedConversationId = w.focusedConversationId
  registry : v.runtimeBySession = w.runtimeBySession
  nextRuntime : v.nextRuntime = w.nextRuntime
  streams : v.streams = w.streams
  nextStream : v.nextStream = w.nextStream
  tasks : v.tasks = w.tasks
  nextTask : v.nextTask = w.nextTask
  runtimes : ∀ r, (v.runtimes r).sessionId = (w.runtimes r).sessionId ∧ (v.runtimes r).disposed = (w.runtimes r).disposed ∧
    (v.runtimes r).controller = (w.runtimes r).controller ∧ (v.runtimes r).pageInFlight = (w.runtimes r).pageInFlight ∧
    (v.runtimes r).pageAbortController = (w.runtimes r).pageAbortController
  projections : ∀ s, (w.bySession s).isSome = true → (v.bySession s).isSome = true

theorem SameWires.refl (w : World β) : SameWires w w :=
  ⟨rfl, rfl, rfl, rfl, rfl, rfl, rfl, fun _ => ⟨rfl, rfl, rfl, rfl, rfl⟩, fun _ h => h⟩

theorem SameWires.canStream (h : SameWires w v) (s : String) (r : Nat) : v.runtimeCanStream s r = w.runtimeCanStream s r := by
  unfold World.runtimeCanStream
  rw [h.focused, h.registry, (h.runtimes r).2.1]

theorem Wired.same (h : Wired w) (hsame : SameWires w v) : Wired v where
  registered := fun s r hr => by
    obtain ⟨hs, hd, -⟩ := hsame.runtimes r
    rw [hs, hd]
    exact h.registered s r (hsame.registry ▸ hr)
  undisposed := fun r hr => by
    obtain ⟨hs, hd, -⟩ := hsame.runtimes r
    rw [hs, hsame.registry]
    exact h.undisposed r (hd ▸ hr)
  unmade := fun r hr => by
    obtain ⟨-, hd, -, hp, -⟩ := hsame.runtimes r
    rw [hd, hp]
    exact h.unmade r (hsame.nextRuntime ▸ hr)
  controlled := fun r k hr hk => by
    obtain ⟨hs, hd, hc, -⟩ := hsame.runtimes r
    rw [hs, hsame.streams]
    exact h.controlled r k (hd ▸ hr) (hc ▸ hk)
  streaming := fun k hk => by
    rw [hsame.streams] at hk ⊢
    obtain ⟨-, -, hc, hp, -⟩ := hsame.runtimes (w.streams k).runtime
    rw [hsame.canStream, hc, hp]
    exact h.streaming k hk
  closed := fun k hk => by
    rw [hsame.streams] at hk ⊢
    exact h.closed k hk
  unopened := fun k hk => by
    rw [hsame.streams]
    exact h.unopened k (hsame.nextStream ▸ hk)
  waiting := fun i t ht => by
    obtain ⟨hs, -, -, hp, ha⟩ := hsame.runtimes t.runtime
    rw [hs, hp, ha]
    exact h.waiting i t (hsame.tasks ▸ ht)
  single := fun i j t t' ht ht' => h.single i j t t' (hsame.tasks ▸ ht) (hsame.tasks ▸ ht')
  inFlight := fun r hr => by
    obtain ⟨-, -, -, hp, -⟩ := hsame.runtimes r
    rw [hsame.tasks]
    exact h.inFlight r (hp ▸ hr)
  unstarted := fun i hi => by
    rw [hsame.tasks]
    exact h.unstarted i (hsame.nextTask ▸ hi)
  older := fun i t ht => by
    obtain ⟨hs, hd, -⟩ := hsame.runtimes t.runtime
    obtain ⟨hmade, hsession, hsome⟩ := h.older i t (hsame.tasks ▸ ht)
    rw [hs, hd, hsame.nextRuntime]
    exact ⟨hmade, hsession, fun hopen => hsame.projections _ (hsome hopen)⟩

theorem sameWires_setProjection (w : World β) (s : String) (p : Projection β) : SameWires w (w.setProjection s (some p)) := by
  refine ⟨rfl, rfl, rfl, rfl, rfl, rfl, rfl, fun _ => ⟨rfl, rfl, rfl, rfl, rfl⟩, fun s' hs => ?_⟩
  simp only [World.setProjection, Function.update_apply]
  split
  · rfl
  · exact hs

theorem sameWires_setStreamPhase (w : World β) (s : String) (phase : StreamPhase) :
    SameWires w (w.setStreamPhase s phase) := by
  unfold World.setStreamPhase
  split
  · exact sameWires_setProjection w s _
  · exact .refl w

theorem sameWires_clearRecovery (w : World β) (s : String) : SameWires w (w.clearRecovery s) := by
  unfold World.clearRecovery
  split
  · exact sameWires_setProjection w s _
  · exact .refl w

theorem sameWires_applyInitial (w : World β) (s : String) (page : ConversationPage β) : SameWires w (w.applyInitial s page) :=
  let h := sameWires_setProjection w s
    (((w.bySession s).getD (emptyProjection page.identity)).applyInitialPage page w.bases)
  ⟨rfl, rfl, rfl, rfl, rfl, rfl, rfl, h.runtimes, h.projections⟩

theorem sameWires_applyOlder (w : World β) (s : String) (page : ConversationPage β) : SameWires w (w.applyOlder s page) :=
  let h := sameWires_setProjection w s (((w.bySession s).getD (emptyProjection page.identity)).applyOlderPage page)
  ⟨rfl, rfl, rfl, rfl, rfl, rfl, rfl, h.runtimes, h.projections⟩

theorem sameWires_setRuntime (w : World β) (r : Nat) (f : SessionRuntime → SessionRuntime)
    (hf : ∀ x, (f x).sessionId = x.sessionId ∧ (f x).disposed = x.disposed ∧ (f x).controller = x.controller ∧
      (f x).pageInFlight = x.pageInFlight ∧ (f x).pageAbortController = x.pageAbortController) :
    SameWires w (w.setRuntime r f) := by
  refine ⟨rfl, rfl, rfl, rfl, rfl, rfl, rfl, fun r' => ?_, fun _ h => h⟩
  simp only [World.setRuntime, Function.update_apply]
  split
  · rename_i heq
    rw [heq]
    exact hf _
  · exact ⟨rfl, rfl, rfl, rfl, rfl⟩

theorem sameWires_clearPending (w : World β) (r : Nat) : SameWires w (w.clearPending r) :=
  sameWires_setRuntime w r _ fun _ => ⟨rfl, rfl, rfl, rfl, rfl⟩

theorem sameWires_abortPage (w : World β) (r : Nat) : SameWires w (w.abortPage r) := by
  unfold World.abortPage
  split
  · exact ⟨rfl, rfl, rfl, rfl, rfl, rfl, rfl, fun _ => ⟨rfl, rfl, rfl, rfl, rfl⟩, fun _ h => h⟩
  · exact .refl w

/-! ## Streams that stop -/

theorem Wired.silent (h : Wired w) (hf : ∀ s r, w.focusedConversationId = some s → w.runtimeBySession s = some r →
    (w.runtimes r).controller = none) (k : Nat) : (w.streams k).stopped = true := by
  cases hk : (w.streams k).stopped with
  | true => rfl
  | false =>
    obtain ⟨hcan, hctl, -⟩ := h.streaming k hk
    obtain ⟨hfocus, hreg, -⟩ := canStream_iff.mp hcan
    rw [hf _ _ hfocus hreg] at hctl
    cases hctl

theorem stopController_runtimes (w : World β) (r : Nat) : (w.stopController r).runtimes = w.runtimes := by
  unfold World.stopController
  split <;> rfl

theorem stopRuntimeStream_runtimes (w : World β) (r r' : Nat) : (w.stopRuntimeStream r).runtimes r' =
    if r' = r then { w.runtimes r with controller := none } else w.runtimes r' := by
  unfold World.stopRuntimeStream World.setRuntime
  rw [stopController_runtimes]
  exact Function.update_apply ..

theorem stopRuntimeStream_streams (w : World β) (r k : Nat) : (w.stopRuntimeStream r).streams k =
    if (w.runtimes r).controller = some k then { w.streams k with source := none, timer := false, stopped := true }
    else w.streams k := by
  unfold World.stopRuntimeStream World.stopController
  cases hc : (w.runtimes r).controller with
  | none => rfl
  | some k' =>
    simp only [World.setRuntime, World.stopStream, World.setStream, Function.update_apply, Option.some.injEq]
    by_cases hk : k = k'
    · rw [if_pos hk, if_pos hk.symm, hk]
    · rw [if_neg hk, if_neg (Ne.symm hk)]

theorem stopRuntimeStream_rest (w : World β) (r : Nat) :
    (w.stopRuntimeStream r).bySession = w.bySession ∧ (w.stopRuntimeStream r).focusedConversationId = w.focusedConversationId ∧
      (w.stopRuntimeStream r).runtimeBySession = w.runtimeBySession ∧ (w.stopRuntimeStream r).nextRuntime = w.nextRuntime ∧
      (w.stopRuntimeStream r).nextStream = w.nextStream ∧ (w.stopRuntimeStream r).tasks = w.tasks ∧
      (w.stopRuntimeStream r).nextTask = w.nextTask := by
  unfold World.stopRuntimeStream World.stopController
  split <;> exact ⟨rfl, rfl, rfl, rfl, rfl, rfl, rfl⟩

theorem Wired.stopRuntimeStream (h : Wired w) (hopen : (w.runtimes r).disposed = false) : Wired (w.stopRuntimeStream r) := by
  obtain ⟨hprojs, hfocus, hreg, hnextr, hnexts, htasks, hnextt⟩ := stopRuntimeStream_rest w r
  have hrt := stopRuntimeStream_runtimes w r
  have hkept : ∀ r', ((w.stopRuntimeStream r).runtimes r').sessionId = (w.runtimes r').sessionId ∧
      ((w.stopRuntimeStream r).runtimes r').disposed = (w.runtimes r').disposed ∧
      ((w.stopRuntimeStream r).runtimes r').pageInFlight = (w.runtimes r').pageInFlight ∧
      ((w.stopRuntimeStream r).runtimes r').pageAbortController = (w.runtimes r').pageAbortController := by
    intro r'
    rw [hrt]
    split
    · rename_i heq
      rw [heq]
      exact ⟨rfl, rfl, rfl, rfl⟩
    · exact ⟨rfl, rfl, rfl, rfl⟩
  have hcan : ∀ s r', (w.stopRuntimeStream r).runtimeCanStream s r' = w.runtimeCanStream s r' := by
    intro s r'
    unfold World.runtimeCanStream
    rw [hfocus, hreg, (hkept r').2.1]
  refine ⟨fun s r' hr' => ?_, fun r' hr' => ?_, fun r' hr' => ?_, fun r' k hr' hk => ?_, fun k hk => ?_, fun k hk => ?_,
    fun k hk => ?_, fun i t ht => ?_, fun i j t t' ht ht' => ?_, fun r' hr' => ?_, fun i hi => ?_, fun i t ht => ?_⟩
  · rw [hreg] at hr'
    rw [(hkept r').1, (hkept r').2.1]
    exact h.registered s r' hr'
  · rw [(hkept r').2.1] at hr'
    rw [(hkept r').1, hreg]
    exact h.undisposed r' hr'
  · rw [hnextr] at hr'
    rw [(hkept r').2.1, (hkept r').2.2.1]
    exact h.unmade r' hr'
  · rw [(hkept r').2.1] at hr'
    have hne : r' ≠ r := by
      intro heq
      rw [hrt, if_pos heq] at hk
      cases hk
    rw [hrt, if_neg hne] at hk
    obtain ⟨hstop, hof, hsession⟩ := h.controlled r' k hr' hk
    have hother : (w.runtimes r).controller ≠ some k := fun hc => hne (hof.symm.trans (h.controlled r k hopen hc).2.1)
    rw [stopRuntimeStream_streams, if_neg hother, (hkept r').1]
    exact ⟨hstop, hof, hsession⟩
  · have hother : (w.runtimes r).controller ≠ some k := by
      intro hc
      rw [stopRuntimeStream_streams, if_pos hc] at hk
      cases hk
    rw [stopRuntimeStream_streams, if_neg hother] at hk ⊢
    obtain ⟨hstream, hctl, hfree⟩ := h.streaming k hk
    have hne : (w.streams k).runtime ≠ r := fun heq => hother (heq ▸ hctl)
    rw [hcan, (hkept _).2.2.1, hrt, if_neg hne]
    exact ⟨hstream, hctl, hfree⟩
  · rw [stopRuntimeStream_streams] at hk ⊢
    split
    · exact ⟨rfl, rfl⟩
    rename_i hother
    rw [if_neg hother] at hk
    exact h.closed k hk
  · rw [hnexts] at hk
    rw [stopRuntimeStream_streams]
    split
    · rfl
    · exact h.unopened k hk
  · rw [htasks] at ht
    rw [(hkept _).1, (hkept _).2.2.1, (hkept _).2.2.2]
    exact h.waiting i t ht
  · rw [htasks] at ht ht'
    exact h.single i j t t' ht ht'
  · rw [(hkept r').2.2.1] at hr'
    rw [htasks]
    exact h.inFlight r' hr'
  · rw [hnextt] at hi
    rw [htasks]
    exact h.unstarted i hi
  · rw [htasks] at ht
    rw [(hkept _).1, (hkept _).2.1, hnextr, hprojs]
    exact h.older i t ht

theorem stopRuntimeStream_controller (w : World β) (r : Nat) : ((w.stopRuntimeStream r).runtimes r).controller = none := by
  rw [stopRuntimeStream_runtimes, if_pos rfl]

end AgentsRemember.Chats

/-! ## Focus, registry and tasks keep the wires together

One lemma for each way in which a call or a callback moves them.
-/

namespace AgentsRemember.Chats

open Lib

variable {β : Type} {w v : World β} {s : String} {r i k : Nat}

/-! ## Focus -/

theorem Wired.refocus (h : Wired w) (hs : ∀ k, (w.streams k).stopped = true) (focus : Option String) :
    Wired { w with focusedConversationId := focus } :=
  { h with streaming := fun k hk => absurd (hs k) (by rw [hk]; decide) }

theorem selectFocusedConversation_eq (w : World β) (focus : Option String) (hne : w.focusedConversationId ≠ focus) :
    w.selectFocusedConversation focus =
      { (match w.focusedConversationId.bind w.runtimeBySession with
        | some r => (w.stopRuntimeStream r).abortPage r
        | none => w) with focusedConversationId := focus } := by
  unfold World.selectFocusedConversation
  rw [if_neg hne]
  cases w.focusedConversationId.bind w.runtimeBySession with
  | none => rfl
  | some r =>
    simp only [World.stopRuntimeStream, World.stopController, World.abortPage, World.setRuntime, World.stopStream, World.setStream]
    cases (w.runtimes r).controller <;> simp only [Function.update_self] <;> cases (w.runtimes r).pageAbortController <;> rfl

theorem Wired.silence (h : Wired w) (hreg : w.runtimeBySession s = some r) (hfocus : w.focusedConversationId = some s) :
    Wired ((w.stopRuntimeStream r).abortPage r) ∧ ∀ k, (((w.stopRuntimeStream r).abortPage r).streams k).stopped = true := by
  have hwired : Wired (w.stopRuntimeStream r) := h.stopRuntimeStream (h.registered s r hreg).1
  have hsame := sameWires_abortPage (w.stopRuntimeStream r) r
  obtain ⟨-, hfoc, hregs, -⟩ := stopRuntimeStream_rest w r
  refine ⟨hwired.same hsame, fun k => ?_⟩
  rw [hsame.streams]
  refine hwired.silent (fun s' r' hs' hr' => ?_) k
  rw [hfoc, hfocus] at hs'
  cases hs'
  rw [hregs, hreg] at hr'
  cases hr'
  exact stopRuntimeStream_controller w r

theorem Wired.select (h : Wired w) (focus : Option String) : Wired (w.selectFocusedConversation focus) := by
  by_cases heq : w.focusedConversationId = focus
  · unfold World.selectFocusedConversation
    rw [if_pos heq]
    exact h
  rw [selectFocusedConversation_eq w focus heq]
  split
  · rename_i r hr
    obtain ⟨s, hs, hreg⟩ := Option.bind_eq_some_iff.mp hr
    obtain ⟨hwired, hsilent⟩ := h.silence hreg hs
    exact hwired.refocus hsilent focus
  rename_i hnone
  refine h.refocus (h.silent fun s r hs hr => ?_) focus
  rw [hs, Option.bind_some, hr] at hnone
  cases hnone

theorem selectFocusedConversation_rest (w : World β) (focus : Option String) :
    (w.selectFocusedConversation focus).focusedConversationId = focus ∧
      (w.selectFocusedConversation focus).bySession = w.bySession ∧
      (w.selectFocusedConversation focus).runtimeBySession = w.runtimeBySession ∧
      (w.selectFocusedConversation focus).nextRuntime = w.nextRuntime ∧
      (w.selectFocusedConversation focus).tasks = w.tasks ∧ (w.selectFocusedConversation focus).bases = w.bases := by
  by_cases heq : w.focusedConversationId = focus
  · unfold World.selectFocusedConversation
    rw [if_pos heq]
    exact ⟨heq, rfl, rfl, rfl, rfl, rfl⟩
  rw [selectFocusedConversation_eq w focus heq]
  refine ⟨rfl, ?_⟩
  split
  · unfold World.abortPage World.stopRuntimeStream World.stopController
    split <;> split <;> exact ⟨rfl, rfl, rfl, rfl, rfl⟩
  · exact ⟨rfl, rfl, rfl, rfl, rfl⟩

/-! ## The registry -/

def unregister (w : World β) (s : String) (r : Nat) : World β :=
  { w.setRuntime r fun runtime => { runtime with disposed := true } with
    runtimeBySession := Function.update w.runtimeBySession s none
    focusedConversationId := if w.focusedConversationId = some s then none else w.focusedConversationId }

theorem Wired.unregister (h : Wired w) (hreg : w.runtimeBySession s = some r) (hctl : (w.runtimes r).controller = none) :
    Wired (unregister w s r) := by
  obtain ⟨hopen, hsession⟩ := h.registered s r hreg
  have hrt : ∀ r', (Chats.unregister w s r).runtimes r' = if r' = r then { w.runtimes r with disposed := true } else w.runtimes r' :=
    fun r' => Function.update_apply ..
  have hregs : ∀ s', (Chats.unregister w s r).runtimeBySession s' = if s' = s then none else w.runtimeBySession s' :=
    fun s' => Function.update_apply ..
  have hkept : ∀ r', ((Chats.unregister w s r).runtimes r').sessionId = (w.runtimes r').sessionId ∧
      ((Chats.unregister w s r).runtimes r').controller = (w.runtimes r').controller ∧
      ((Chats.unregister w s r).runtimes r').pageInFlight = (w.runtimes r').pageInFlight ∧
      ((Chats.unregister w s r).runtimes r').pageAbortController = (w.runtimes r').pageAbortController := by
    intro r'
    rw [hrt]
    split
    · rename_i heq
      rw [heq]
      exact ⟨rfl, rfl, rfl, rfl⟩
    · exact ⟨rfl, rfl, rfl, rfl⟩
  have hundisposed : ∀ r', ((Chats.unregister w s r).runtimes r').disposed = false → r' ≠ r ∧ (w.runtimes r').disposed = false := by
    intro r' hr'
    rw [hrt] at hr'
    split at hr'
    · cases hr'
    · exact ⟨‹_›, hr'⟩
  refine ⟨fun s' r' hr' => ?_, fun r' hr' => ?_, fun r' hr' => ?_, fun r' k hr' hk => ?_, fun k hk => ?_, h.closed, h.unopened,
    fun i t ht => ?_, h.single, fun r' hr' => ?_, h.unstarted, fun i t ht => ?_⟩
  · rw [hregs] at hr'
    split at hr'
    · cases hr'
    rename_i hs'
    obtain ⟨hopen', hsession'⟩ := h.registered s' r' hr'
    have hne : r' ≠ r := fun heq => hs' (hsession'.symm.trans (heq ▸ hsession))
    rw [hrt, if_neg hne]
    exact ⟨hopen', hsession'⟩
  · obtain ⟨hne, hopen'⟩ := hundisposed r' hr'
    have hback := h.undisposed r' hopen'
    have hs' : (w.runtimes r').sessionId ≠ s := by
      intro heq
      rw [heq, hreg] at hback
      exact hne (Option.some.inj hback).symm
    rw [(hkept r').1, hregs, if_neg hs']
    exact hback
  · obtain ⟨hdisp, hfree⟩ := h.unmade r' hr'
    rw [(hkept r').2.2.1, hrt]
    refine ⟨?_, hfree⟩
    split
    · rfl
    · exact hdisp
  · obtain ⟨hne, hopen'⟩ := hundisposed r' hr'
    rw [(hkept r').2.1] at hk
    rw [(hkept r').1]
    exact h.controlled r' k hopen' hk
  · obtain ⟨hcan, hof, hfree⟩ := h.streaming k hk
    obtain ⟨hfocus, hreg', hopen'⟩ := canStream_iff.mp hcan
    have hne : (w.streams k).runtime ≠ r := by
      intro heq
      rw [heq, hctl] at hof
      cases hof
    have hs' : (w.streams k).sessionId ≠ s := by
      intro heq
      rw [heq, hreg] at hreg'
      exact hne (Option.some.inj hreg').symm
    refine ⟨canStream_iff.mpr ⟨?_, ?_, ?_⟩, ?_, ?_⟩
    · change (if w.focusedConversationId = some s then none else w.focusedConversationId) = some (w.streams k).sessionId
      rw [hfocus, if_neg fun heq => hs' (Option.some.inj heq)]
    · exact (hregs _).trans ((if_neg hs').trans hreg')
    · exact (congrArg SessionRuntime.disposed ((hrt _).trans (if_neg hne))).trans hopen'
    · exact (hkept _).2.1.trans hof
    · exact (hkept _).2.2.1.trans hfree
  · rw [(hkept _).1, (hkept _).2.2.1, (hkept _).2.2.2]
    exact h.waiting i t ht
  · rw [(hkept _).2.2.1] at hr'
    exact h.inFlight r' hr'
  · obtain ⟨hmade, hsession', hsome⟩ := h.older i t ht
    rw [(hkept _).1]
    exact ⟨hmade, hsession', fun hd => hsome (hundisposed _ hd).2⟩

theorem disconnectConversation_eq (hreg : w.runtimeBySession s = some r) :
    w.disconnectConversation s = unregister ((w.stopRuntimeStream r).abortPage r) s r := by
  unfold World.disconnectConversation unregister
  rw [hreg]
  simp only [World.stopRuntimeStream, World.stopController, World.abortPage, World.setRuntime, World.stopStream, World.setStream,
    Function.update_self]
  cases (w.runtimes r).controller <;> cases (w.runtimes r).pageAbortController <;>
    simp only [Function.update_self, Function.update_idem]

theorem Wired.disconnect (h : Wired w) (s : String) : Wired (w.disconnectConversation s) := by
  cases hreg : w.runtimeBySession s with
  | none =>
    unfold World.disconnectConversation
    rw [hreg]
    exact h
  | some r =>
    rw [disconnectConversation_eq hreg]
    have hsame := sameWires_abortPage (w.stopRuntimeStream r) r
    refine ((h.stopRuntimeStream (h.registered s r hreg).1).same hsame).unregister ?_ ?_
    · rw [hsame.registry, (stopRuntimeStream_rest w r).2.2.1]
      exact hreg
    · rw [(hsame.runtimes r).2.2.1]
      exact stopRuntimeStream_controller w r

theorem disconnectConversation_other (h : Wired w) {s' : String} (hne : s' ≠ s) (hfocus : w.focusedConversationId = some s')
    (hreg : w.runtimeBySession s' = some r) : (w.disconnectConversation s).focusedConversationId = some s' ∧
      (w.disconnectConversation s).runtimeBySession s' = some r ∧ (w.disconnectConversation s).runtimes r = w.runtimes r := by
  cases hs : w.runtimeBySession s with
  | none =>
    unfold World.disconnectConversation
    rw [hs]
    exact ⟨hfocus, hreg, rfl⟩
  | some r' =>
    have hr : r ≠ r' := by
      intro heq
      exact hne (((h.registered s' r hreg).2).symm.trans (heq ▸ (h.registered s r' hs).2))
    have hsame := sameWires_abortPage (w.stopRuntimeStream r') r'
    have habort : ((w.stopRuntimeStream r').abortPage r').runtimes = (w.stopRuntimeStream r').runtimes := by
      unfold World.abortPage
      split <;> rfl
    obtain ⟨-, hfoc, hregs, -⟩ := stopRuntimeStream_rest w r'
    rw [disconnectConversation_eq hs]
    refine ⟨?_, ?_, ?_⟩
    · change (if ((w.stopRuntimeStream r').abortPage r').focusedConversationId = some s then none
        else ((w.stopRuntimeStream r').abortPage r').focusedConversationId) = some s'
      rw [hsame.focused, hfoc, hfocus, if_neg fun heq => hne (Option.some.inj heq)]
    · change Function.update ((w.stopRuntimeStream r').abortPage r').runtimeBySession s none s' = some r
      rw [Function.update_of_ne hne, hsame.registry, hregs]
      exact hreg
    · change Function.update ((w.stopRuntimeStream r').abortPage r').runtimes r' _ r = w.runtimes r
      rw [Function.update_of_ne hr, habort, stopRuntimeStream_runtimes, if_neg hr]

theorem disconnectConversation_unregistered (w : World β) (s : String) : (w.disconnectConversation s).runtimeBySession s = none := by
  unfold World.disconnectConversation
  split
  · assumption
  · exact Function.update_self ..

/-! ## The bound of retained sessions -/

theorem Wired.evict (h : Wired w) (hreg : w.runtimeBySession s = none) : Wired (w.evict s) := by
  refine { h with older := fun i t ht => ?_ }
  obtain ⟨hmade, hsession, hsome⟩ := h.older i t ht
  refine ⟨hmade, hsession, fun hopen => ?_⟩
  have hne : t.sessionId ≠ s := by
    intro heq
    have hback := h.undisposed _ hopen
    rw [hsession, heq, hreg] at hback
    cases hback
  change (Function.update w.bySession s none t.sessionId).isSome = true
  rw [Function.update_of_ne hne]
  exact hsome hopen

theorem Wired.evicted (h : Wired w) (s : String) : Wired ((w.disconnectConversation s).evict s) :=
  (h.disconnect s).evict (disconnectConversation_unregistered w s)

theorem enforceLru_rule {I : World β → Prop} (hstep : ∀ w id, I w → id ≠ s → I ((w.disconnectConversation id).evict id))
    (hw : I w) : I (w.enforceLru s) := by
  unfold World.enforceLru
  dsimp only
  generalize hkeep : (s :: w.touchOrder.filter (· ≠ s)).take lruLimit = keep
  have hs : s ∈ keep := by
    rw [← hkeep, lruLimit, List.take_succ_cons]
    exact List.mem_cons_self
  clear hkeep
  induction w.touchOrder generalizing w with
  | nil => exact hw
  | cons id order ih =>
    rw [List.foldl_cons]
    refine ih ?_
    split
    · exact hw
    · rename_i hid
      exact hstep w id hw fun heq => hid (heq ▸ hs)

theorem Wired.enforceLru (h : Wired w) (s : String) : Wired (w.enforceLru s) :=
  enforceLru_rule (fun _ id hw _ => hw.evicted id) h

theorem enforceLru_kept (h : Wired w) (hfocus : w.focusedConversationId = some s) (hreg : w.runtimeBySession s = some r) :
    (w.enforceLru s).focusedConversationId = some s ∧ (w.enforceLru s).runtimeBySession s = some r ∧
      (w.enforceLru s).runtimes r = w.runtimes r := by
  have hall := enforceLru_rule (s := s) (w := w) (I := fun v => Wired v ∧ v.focusedConversationId = some s ∧
    v.runtimeBySession s = some r ∧ v.runtimes r = w.runtimes r) ?_ ⟨h, hfocus, hreg, rfl⟩
  · exact hall.2
  intro v id ⟨hv, hfoc, hr, hrt⟩ hne
  obtain ⟨hfoc', hr', hrt'⟩ := disconnectConversation_other hv (Ne.symm hne) hfoc hr
  exact ⟨hv.evicted id, hfoc', hr', hrt'.trans hrt⟩

theorem disposeExisting_rest (w : World β) (s : String) :
    (w.disposeExisting s).focusedConversationId = w.focusedConversationId ∧
      (w.disposeExisting s).runtimeBySession = w.runtimeBySession ∧ (w.disposeExisting s).nextRuntime = w.nextRuntime ∧
      (w.disposeExisting s).nextStream = w.nextStream ∧ (w.disposeExisting s).tasks = w.tasks ∧
      (w.disposeExisting s).nextTask = w.nextTask ∧ (w.disposeExisting s).bySession = w.bySession ∧
      (w.disposeExisting s).bases = w.bases := by
  unfold World.disposeExisting World.abortPage World.stopController
  split
  · split <;> split <;> exact ⟨rfl, rfl, rfl, rfl, rfl, rfl, rfl, rfl⟩
  · exact ⟨rfl, rfl, rfl, rfl, rfl, rfl, rfl, rfl⟩

theorem disposeExisting_runtimes (w : World β) (s : String) (r : Nat) : (w.disposeExisting s).runtimes r =
    if w.runtimeBySession s = some r then { w.runtimes r with disposed := true } else w.runtimes r := by
  unfold World.disposeExisting
  split
  · rename_i existing hreg
    have habort : ((w.stopController existing).abortPage existing).runtimes = w.runtimes := by
      unfold World.abortPage
      split <;> exact stopController_runtimes w existing
    unfold World.setRuntime
    simp only [habort, Function.update_apply, hreg, Option.some.injEq]
    by_cases heq : r = existing
    · rw [if_pos heq, if_pos heq.symm, heq]
    · rw [if_neg heq, if_neg (Ne.symm heq)]
  · rename_i hreg
    rw [hreg, if_neg (by simp)]

theorem disposeExisting_stopped (h : Wired w) (hfocus : w.focusedConversationId = some s) (k : Nat) :
    ((w.disposeExisting s).streams k).stopped = true ∧ ((w.disposeExisting s).streams k).source = none ∧
      ((w.disposeExisting s).streams k).timer = false := by
  have hothers : ∀ k, (∀ r, w.runtimeBySession s = some r → (w.runtimes r).controller ≠ some k) → (w.streams k).stopped = true := by
    intro k hne
    cases hk : (w.streams k).stopped with
    | true => rfl
    | false =>
      obtain ⟨hcan, hctl, -⟩ := h.streaming k hk
      obtain ⟨hfoc, hreg, -⟩ := canStream_iff.mp hcan
      rw [hfocus] at hfoc
      cases hfoc
      exact absurd hctl (hne _ hreg)
  unfold World.disposeExisting
  split
  · rename_i existing hreg
    have habort : (((w.stopController existing).abortPage existing).setRuntime existing
        fun runtime => { runtime with disposed := true }).streams = (w.stopController existing).streams := by
      unfold World.abortPage
      split <;> rfl
    rw [habort]
    unfold World.stopController
    split
    · rename_i k' hk'
      simp only [World.stopStream, World.setStream, Function.update_apply]
      split
      · exact ⟨rfl, rfl, rfl⟩
      rename_i hne
      have hstop := hothers k fun r hr hc => hne (by
        rw [hreg] at hr
        cases hr
        rw [hk'] at hc
        exact (Option.some.inj hc).symm)
      exact ⟨hstop, h.closed k hstop⟩
    · rename_i hnone
      have hstop := hothers k fun r hr hc => by
        rw [hreg] at hr
        cases hr
        rw [hnone] at hc
        cases hc
      exact ⟨hstop, h.closed k hstop⟩
  · rename_i hreg
    have hstop := hothers k fun r hr => by
      rw [hreg] at hr
      cases hr
    exact ⟨hstop, h.closed k hstop⟩

theorem Wired.register (h : Wired w) (hfocus : w.focusedConversationId = some s) (epoch : String) (limit : Option Nat) :
    Wired ((w.disposeExisting s).register s epoch limit) := by
  obtain ⟨-, hregs, hnextr, hnexts, htasks, hnextt, hprojs, -⟩ := disposeExisting_rest w s
  have hstopped := disposeExisting_stopped h hfocus
  have hreg : ∀ s', ((w.disposeExisting s).register s epoch limit).runtimeBySession s' =
      if s' = s then some w.nextRuntime else w.runtimeBySession s' := by
    intro s'
    unfold World.register
    rw [hregs, hnextr]
    exact Function.update_apply ..
  have hnew : ((w.disposeExisting s).register s epoch limit).runtimes w.nextRuntime = (w.disposeExisting s).makeRuntime s epoch limit := by
    unfold World.register World.setRuntime
    rw [hnextr]
    exact Function.update_self ..
  have hold : ∀ r, r ≠ w.nextRuntime → ((w.disposeExisting s).register s epoch limit).runtimes r =
      if w.runtimeBySession s = some r then { w.runtimes r with disposed := true } else w.runtimes r := by
    intro r hr
    rw [← disposeExisting_runtimes]
    unfold World.register World.setRuntime
    rw [hnextr]
    exact Function.update_of_ne hr ..
  have hkept : ∀ r, r ≠ w.nextRuntime →
      (((w.disposeExisting s).register s epoch limit).runtimes r).sessionId = (w.runtimes r).sessionId ∧
      (((w.disposeExisting s).register s epoch limit).runtimes r).controller = (w.runtimes r).controller ∧
      (((w.disposeExisting s).register s epoch limit).runtimes r).pageInFlight = (w.runtimes r).pageInFlight ∧
      (((w.disposeExisting s).register s epoch limit).runtimes r).pageAbortController = (w.runtimes r).pageAbortController := by
    intro r hr
    rw [hold r hr]
    split <;> exact ⟨rfl, rfl, rfl, rfl⟩
  have hundisposed : ∀ r, r ≠ w.nextRuntime → (((w.disposeExisting s).register s epoch limit).runtimes r).disposed = false →
      w.runtimeBySession s ≠ some r ∧ (w.runtimes r).disposed = false := by
    intro r hr hd
    rw [hold r hr] at hd
    split at hd
    · cases hd
    · exact ⟨‹_›, hd⟩
  have hbusy : ∀ r, (w.runtimes r).pageInFlight = true → r ≠ w.nextRuntime := by
    intro r hr heq
    have hfree := (h.unmade r (Nat.le_of_eq heq.symm)).2
    rw [hr] at hfree
    cases hfree
  refine ⟨fun s' r hr => ?_, fun r hr => ?_, fun r hr => ?_, fun r k hr hk => ?_, fun k hk => ?_, fun k _ => (hstopped k).2,
    fun k _ => (hstopped k).1, fun i t ht => ?_, fun i j t t' ht ht' => ?_, fun r hr => ?_, fun i hi => ?_, fun i t ht => ?_⟩
  · rw [hreg] at hr
    split at hr
    · rename_i heq
      cases hr
      rw [hnew, heq]
      exact ⟨rfl, rfl⟩
    rename_i hne
    obtain ⟨hopen, hsession⟩ := h.registered s' r hr
    have hmade : r ≠ w.nextRuntime := by
      intro heq
      have hdisp := (h.unmade r (Nat.le_of_eq heq.symm)).1
      rw [hopen] at hdisp
      cases hdisp
    have hother : w.runtimeBySession s ≠ some r := fun hs => hne (hsession.symm.trans (h.registered s r hs).2)
    rw [hold r hmade, if_neg hother]
    exact ⟨hopen, hsession⟩
  · by_cases heq : r = w.nextRuntime
    · rw [heq, hnew, hreg]
      exact if_pos rfl
    obtain ⟨hother, hopen⟩ := hundisposed r heq hr
    have hback := h.undisposed r hopen
    have hs' : (w.runtimes r).sessionId ≠ s := fun hs => hother (hs ▸ hback)
    rw [(hkept r heq).1, hreg, if_neg hs']
    exact hback
  · have hr' : w.nextRuntime < r := by
      have hlt : (w.disposeExisting s).nextRuntime + 1 ≤ r := hr
      rw [hnextr] at hlt
      exact hlt
    obtain ⟨hdisp, hfree⟩ := h.unmade r hr'.le
    rw [(hkept r hr'.ne').2.2.1, hold r hr'.ne']
    refine ⟨?_, hfree⟩
    split
    · rfl
    · exact hdisp
  · by_cases heq : r = w.nextRuntime
    · rw [heq, hnew] at hk
      cases hk
    obtain ⟨hother, hopen⟩ := hundisposed r heq hr
    rw [(hkept r heq).2.1] at hk
    obtain ⟨hstop, hof, hsession⟩ := h.controlled r k hopen hk
    obtain ⟨hfoc, hreg', -⟩ := canStream_iff.mp (h.streaming k hstop).1
    rw [hfocus] at hfoc
    rw [hof, ← Option.some.inj hfoc] at hreg'
    exact absurd hreg' hother
  · have hall : (((w.disposeExisting s).register s epoch limit).streams k).stopped = true := (hstopped k).1
    rw [hall] at hk
    cases hk
  · have ht' : w.tasks i = some (.page t) := htasks ▸ ht
    obtain ⟨hbusy', hsignal, hsession⟩ := h.waiting i t ht'
    obtain ⟨h₁, -, h₃, h₄⟩ := hkept t.runtime (hbusy _ hbusy')
    rw [h₁, h₃, h₄]
    exact ⟨hbusy', hsignal, hsession⟩
  · exact h.single i j t t' (htasks ▸ ht) (htasks ▸ ht')
  · have hne : r ≠ w.nextRuntime := by
      intro heq
      rw [heq, hnew] at hr
      cases hr
    rw [(hkept r hne).2.2.1] at hr
    obtain ⟨i, t, ht, htr⟩ := h.inFlight r hr
    exact ⟨i, t, htasks.symm ▸ ht, htr⟩
  · have hi' : w.nextTask ≤ i := hnextt ▸ hi
    exact (congrFun htasks i).trans (h.unstarted i hi')
  · obtain ⟨hmade, hsession, hsome⟩ := h.older i t (htasks ▸ ht)
    refine ⟨?_, ?_, fun hopen => ?_⟩
    · change t.runtime < (w.disposeExisting s).nextRuntime + 1
      rw [hnextr]
      exact Nat.lt_succ_of_lt hmade
    · rw [(hkept t.runtime hmade.ne).1]
      exact hsession
    change ((w.disposeExisting s).bySession t.sessionId).isSome = true
    rw [hprojs]
    exact hsome (hundisposed _ hmade.ne hopen).2

end AgentsRemember.Chats
