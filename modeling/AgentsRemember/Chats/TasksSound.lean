import AgentsRemember.Chats.CallsSound

/-!
# Page tasks and streams keep the wires together

A page task starts only where the runtime's place is free, and leaves the place
when it ends; a stream opens only where no page is on its way.
-/

namespace AgentsRemember.Chats

open Lib

variable {β : Type} {w v : World β} {s : String} {r i k : Nat}

theorem Wired.startPage (h : Wired w) (hreg : w.runtimeBySession s = some r) (hfree : (w.runtimes r).pageInFlight = false)
    (hctl : (w.runtimes r).controller = none) (kind : PageKind) (limit : Option Nat) : Wired (w.startPage kind s r limit) := by
  obtain ⟨hopen, hsession⟩ := h.registered s r hreg
  have hmade : r < w.nextRuntime := by
    by_contra hle
    rw [(h.unmade r (Nat.le_of_not_lt hle)).1] at hopen
    cases hopen
  have hrt : ∀ r', (w.startPage kind s r limit).runtimes r' = if r' = r then
      { w.runtimes r with pendingPageKind := some kind, pageAbortController := some w.nextSignal, pageInFlight := true }
      else w.runtimes r' := fun r' => Function.update_apply ..
  have hkept : ∀ r', ((w.startPage kind s r limit).runtimes r').sessionId = (w.runtimes r').sessionId ∧
      ((w.startPage kind s r limit).runtimes r').disposed = (w.runtimes r').disposed ∧
      ((w.startPage kind s r limit).runtimes r').controller = (w.runtimes r').controller := by
    intro r'
    rw [hrt]
    split
    · rename_i heq
      rw [heq]
      exact ⟨rfl, rfl, rfl⟩
    · exact ⟨rfl, rfl, rfl⟩
  have hcan : ∀ s' r', (w.startPage kind s r limit).runtimeCanStream s' r' = w.runtimeCanStream s' r' := by
    intro s' r'
    have hd := (hkept r').2.1
    unfold World.runtimeCanStream
    rw [hd]
    rfl
  obtain ⟨task, htask, hof, hat, hsig⟩ : ∃ task : PageTask β,
      (∀ i, (w.startPage kind s r limit).tasks i = if i = w.nextTask then some (.page task) else w.tasks i) ∧
        task.runtime = r ∧ task.sessionId = s ∧ task.signal = w.nextSignal :=
    ⟨_, fun i => Function.update_apply .., rfl, rfl, rfl⟩
  have hpage : ∀ i t, (w.startPage kind s r limit).tasks i = some (.page t) →
      (i = w.nextTask ∧ t = task) ∨ (w.tasks i = some (.page t) ∧ t.runtime ≠ r) := by
    intro i t ht
    rw [htask] at ht
    split at ht
    · cases ht
      exact .inl ⟨‹_›, rfl⟩
    refine .inr ⟨ht, fun heq => ?_⟩
    have hbusy := (h.waiting i t ht).1
    rw [heq, hfree] at hbusy
    cases hbusy
  refine ⟨fun s' r' hr' => ?_, fun r' hr' => ?_, fun r' hr' => ?_, fun r' k hr' hk => ?_, fun k hk => ?_, h.closed, h.unopened,
    fun i t ht => ?_, fun i j t t' ht ht' heq => ?_, fun r' hr' => ?_, fun i hi => ?_, fun i t ht => ?_⟩
  · rw [(hkept r').1, (hkept r').2.1]
    exact h.registered s' r' hr'
  · rw [(hkept r').2.1] at hr'
    rw [(hkept r').1]
    exact h.undisposed r' hr'
  · have hne : r' ≠ r := fun heq => absurd (heq ▸ hr' : w.nextRuntime ≤ r) (Nat.not_le.mpr hmade)
    rw [hrt, if_neg hne]
    exact h.unmade r' hr'
  · rw [(hkept r').2.1] at hr'
    rw [(hkept r').2.2] at hk
    rw [(hkept r').1]
    exact h.controlled r' k hr' hk
  · obtain ⟨hstream, hof', hplace⟩ := h.streaming k hk
    have hne : (w.streams k).runtime ≠ r := by
      intro heq
      rw [heq, hctl] at hof'
      cases hof'
    refine ⟨(hcan _ _).trans hstream, (hkept _).2.2.trans hof', ?_⟩
    exact (congrArg SessionRuntime.pageInFlight ((hrt _).trans (if_neg hne))).trans hplace
  · rcases hpage i t ht with ⟨-, rfl⟩ | ⟨hold, hne⟩
    · rw [hof, hat, hsig, hrt, if_pos rfl]
      exact ⟨rfl, rfl, hsession⟩
    · rw [hrt, if_neg hne]
      exact h.waiting i t hold
  · rcases hpage i t ht with ⟨hi, rfl⟩ | ⟨hold, hne⟩ <;> rcases hpage j t' ht' with ⟨hj, rfl⟩ | ⟨hold', hne'⟩
    · exact hi.trans hj.symm
    · exact absurd (heq.symm.trans hof) hne'
    · exact absurd (heq.trans hof) hne
    · exact h.single i j t t' hold hold' heq
  · by_cases heq : r' = r
    · exact ⟨w.nextTask, task, (htask _).trans (if_pos rfl), hof.trans heq.symm⟩
    rw [hrt, if_neg heq] at hr'
    obtain ⟨i, t, ht, htr⟩ := h.inFlight r' hr'
    have hi : i ≠ w.nextTask := by
      intro hi
      rw [h.unstarted i hi.ge] at ht
      cases ht
    exact ⟨i, t, (htask i).trans ((if_neg hi).trans ht), htr⟩
  · have hi' : w.nextTask + 1 ≤ i := hi
    rw [htask, if_neg (by omega)]
    exact h.unstarted i (by omega)
  rw [htask] at ht
  split at ht
  · cases ht
  · rw [(hkept _).1, (hkept _).2.1]
    exact h.older i t ht

variable {t : PageTask β}

theorem Wired.replacePage (h : Wired w) {t' : PageTask β} (ht : w.tasks i = some (.page t))
    (hr : t'.runtime = t.runtime) (hs : t'.sessionId = t.sessionId) (hsig : t'.signal = t.signal) :
    Wired (w.setTask i (some (.page t'))) := by
  have htask : ∀ j, (w.setTask i (some (.page t'))).tasks j = if j = i then some (.page t') else w.tasks j :=
    fun j => Function.update_apply ..
  have hpage : ∀ j u, (w.setTask i (some (.page t'))).tasks j = some (.page u) →
      ∃ u', w.tasks j = some (.page u') ∧ u.runtime = u'.runtime ∧ u.sessionId = u'.sessionId ∧ u.signal = u'.signal := by
    intro j u hu
    rw [htask] at hu
    split at hu
    · rename_i heq
      cases hu
      exact ⟨t, heq ▸ ht, hr, hs, hsig⟩
    · exact ⟨u, hu, rfl, rfl, rfl⟩
  refine ⟨h.registered, h.undisposed, h.unmade, h.controlled, h.streaming, h.closed, h.unopened, fun j u hu => ?_,
    fun j j' u u' hu hu' heq => ?_, fun r hr' => ?_, fun j hj => ?_, fun j u hu => ?_⟩
  · obtain ⟨u', hu', h₁, h₂, h₃⟩ := hpage j u hu
    rw [h₁, h₂, h₃]
    exact h.waiting j u' hu'
  · obtain ⟨x, hx, hxr, -⟩ := hpage j u hu
    obtain ⟨x', hx', hxr', -⟩ := hpage j' u' hu'
    exact h.single j j' x x' hx hx' (hxr.symm.trans (heq.trans hxr'))
  · obtain ⟨j, u, hu, hur⟩ := h.inFlight r hr'
    by_cases hj : j = i
    · rw [hj, ht] at hu
      cases hu
      exact ⟨i, t', (htask i).trans (if_pos rfl), hr.trans hur⟩
    · exact ⟨j, u, (htask j).trans ((if_neg hj).trans hu), hur⟩
  · rw [htask]
    split
    · rename_i heq
      rw [h.unstarted i (heq ▸ hj)] at ht
      cases ht
    · exact h.unstarted j hj
  rw [htask] at hu
  split at hu
  · cases hu
  · exact h.older j u hu

theorem endPage_runtimes (h : Wired w) (ht : w.tasks i = some (.page t)) (r : Nat) :
    (w.endPage i t).runtimes r = if r = t.runtime then
      { w.runtimes t.runtime with pageAbortController := none, pageInFlight := false } else w.runtimes r := by
  have hplace := (h.waiting i t ht).2.1
  unfold World.endPage World.setRuntime
  simp only [Function.update_apply]
  split
  · exact if_pos hplace
  · rfl

theorem Wired.endPage (h : Wired w) (ht : w.tasks i = some (.page t)) : Wired (w.endPage i t) := by
  have hrt := endPage_runtimes h ht
  have hkept : ∀ r, ((w.endPage i t).runtimes r).sessionId = (w.runtimes r).sessionId ∧
      ((w.endPage i t).runtimes r).disposed = (w.runtimes r).disposed ∧
      ((w.endPage i t).runtimes r).controller = (w.runtimes r).controller := by
    intro r
    rw [hrt]
    split
    · rename_i heq
      rw [heq]
      exact ⟨rfl, rfl, rfl⟩
    · exact ⟨rfl, rfl, rfl⟩
  have hfree : ∀ r, (w.runtimes r).pageInFlight = false → ((w.endPage i t).runtimes r).pageInFlight = false := by
    intro r hr
    rw [hrt]
    split
    · rfl
    · exact hr
  have hcan : ∀ s r, (w.endPage i t).runtimeCanStream s r = w.runtimeCanStream s r := by
    intro s r
    have hd := (hkept r).2.1
    unfold World.runtimeCanStream
    rw [hd]
    rfl
  have htask : ∀ j, (w.endPage i t).tasks j = if j = i then none else w.tasks j := fun j => Function.update_apply ..
  have hpage : ∀ j u, (w.endPage i t).tasks j = some u → j ≠ i ∧ w.tasks j = some u := by
    intro j u hu
    rw [htask] at hu
    split at hu
    · cases hu
    · exact ⟨‹_›, hu⟩
  refine ⟨fun s r hr => ?_, fun r hr => ?_, fun r hr => ?_, fun r k hr hk => ?_, fun k hk => ?_, h.closed, h.unopened,
    fun j u hu => ?_, fun j j' u u' hu hu' => ?_, fun r hr => ?_, fun j hj => ?_, fun j u hu => ?_⟩
  · rw [(hkept r).1, (hkept r).2.1]
    exact h.registered s r hr
  · rw [(hkept r).2.1] at hr
    rw [(hkept r).1]
    exact h.undisposed r hr
  · obtain ⟨hdisp, hidle⟩ := h.unmade r hr
    rw [(hkept r).2.1]
    exact ⟨hdisp, hfree r hidle⟩
  · rw [(hkept r).2.1] at hr
    rw [(hkept r).2.2] at hk
    rw [(hkept r).1]
    exact h.controlled r k hr hk
  · obtain ⟨hstream, hof, hidle⟩ := h.streaming k hk
    exact ⟨(hcan _ _).trans hstream, (hkept _).2.2.trans hof, hfree _ hidle⟩
  · obtain ⟨hj, hold⟩ := hpage j _ hu
    have hne : u.runtime ≠ t.runtime := fun heq => hj (h.single j i u t hold ht heq)
    rw [hrt, if_neg hne]
    exact h.waiting j u hold
  · exact h.single j j' u u' (hpage j _ hu).2 (hpage j' _ hu').2
  · rw [hrt] at hr
    split at hr
    · cases hr
    rename_i hne
    obtain ⟨j, u, hu, hur⟩ := h.inFlight r hr
    have hj : j ≠ i := by
      intro heq
      rw [heq, ht] at hu
      cases hu
      exact hne hur.symm
    exact ⟨j, u, (htask j).trans ((if_neg hj).trans hu), hur⟩
  · rw [htask]
    split
    · rfl
    · exact h.unstarted j hj
  · rw [(hkept _).1, (hkept _).2.1]
    exact h.older j u (hpage j _ hu).2

/-! ## Loads of older pages -/

theorem Wired.startOlder (h : Wired w) {t : OlderTask} (hreg : w.runtimeBySession t.sessionId = some t.runtime)
    (hproj : (w.bySession t.sessionId).isSome = true) : Wired (w.startTask (.older t)) := by
  obtain ⟨hopen, hsession⟩ := h.registered _ _ hreg
  have hmade : t.runtime < w.nextRuntime := by
    by_contra hle
    rw [(h.unmade _ (Nat.le_of_not_lt hle)).1] at hopen
    cases hopen
  have htask : ∀ j, (w.startTask (.older t)).tasks j = if j = w.nextTask then some (.older t) else w.tasks j :=
    fun j => Function.update_apply ..
  have hpage : ∀ j u, (w.startTask (.older t)).tasks j = some (.page u) → w.tasks j = some (.page u) := by
    intro j u hu
    rw [htask] at hu
    split at hu
    · cases hu
    · exact hu
  refine ⟨h.registered, h.undisposed, h.unmade, h.controlled, h.streaming, h.closed, h.unopened,
    fun j u hu => h.waiting j u (hpage j u hu), fun j j' u u' hu hu' => h.single j j' u u' (hpage j u hu) (hpage j' u' hu'),
    fun r hr => ?_, fun j hj => ?_, fun j u hu => ?_⟩
  · obtain ⟨j, u, hu, hur⟩ := h.inFlight r hr
    have hj : j ≠ w.nextTask := by
      intro heq
      rw [h.unstarted j heq.ge] at hu
      cases hu
    exact ⟨j, u, (htask j).trans ((if_neg hj).trans hu), hur⟩
  · have hj' : w.nextTask + 1 ≤ j := hj
    rw [htask, if_neg (by omega)]
    exact h.unstarted j (by omega)
  rw [htask] at hu
  split at hu
  · cases hu
    exact ⟨hmade, hsession, fun _ => hproj⟩
  · exact h.older j u hu

theorem Wired.endOlder (h : Wired w) {t : OlderTask} (ht : w.tasks i = some (.older t)) : Wired (w.setTask i none) := by
  have htask : ∀ j, (w.setTask i none).tasks j = if j = i then none else w.tasks j := fun j => Function.update_apply ..
  have hpage : ∀ j u, (w.setTask i none).tasks j = some u → w.tasks j = some u := by
    intro j u hu
    rw [htask] at hu
    split at hu
    · cases hu
    · exact hu
  refine ⟨h.registered, h.undisposed, h.unmade, h.controlled, h.streaming, h.closed, h.unopened,
    fun j u hu => h.waiting j u (hpage j _ hu), fun j j' u u' hu hu' => h.single j j' u u' (hpage j _ hu) (hpage j' _ hu'),
    fun r hr => ?_, fun j hj => ?_, fun j u hu => h.older j u (hpage j _ hu)⟩
  · obtain ⟨j, u, hu, hur⟩ := h.inFlight r hr
    have hj : j ≠ i := by
      intro heq
      rw [heq, ht] at hu
      cases hu
    exact ⟨j, u, (htask j).trans ((if_neg hj).trans hu), hur⟩
  rw [htask]
  split
  · rfl
  · exact h.unstarted j hj

/-! ## Streams -/

def openNew (w : World β) (s : String) (r : Nat) : World β :=
  ({ w.setStream w.nextStream (fun _ => ⟨s, r, some false, false, false⟩) with nextStream := w.nextStream + 1 }).setRuntime r
    fun runtime => { runtime with controller := some w.nextStream }

theorem startStream_eq (hcan : w.runtimeCanStream s r = true) (hfree : (w.runtimes r).pageInFlight = false) :
    w.startStream s r = openNew (w.stopRuntimeStream r) s r := by
  unfold World.startStream openNew
  rw [if_neg (by simp [hcan, hfree])]
  simp only [World.stopRuntimeStream, World.stopController, World.setRuntime, World.setStream, World.stopStream]
  cases (w.runtimes r).controller <;> simp only [Function.update_self, Function.update_idem]

theorem startStream_of_not (h : w.runtimeCanStream s r = false ∨ (w.runtimes r).pageInFlight = true) : w.startStream s r = w := by
  unfold World.startStream
  rw [if_pos (by rcases h with h | h <;> simp [h])]

theorem Wired.openNew (h : Wired w) (hcan : w.runtimeCanStream s r = true) (hfree : (w.runtimes r).pageInFlight = false)
    (hctl : (w.runtimes r).controller = none) : Wired (openNew w s r) := by
  obtain ⟨hfocus, hreg, hopen⟩ := canStream_iff.mp hcan
  obtain ⟨-, hsession⟩ := h.registered s r hreg
  have hrt : ∀ r', (Chats.openNew w s r).runtimes r' =
      if r' = r then { w.runtimes r with controller := some w.nextStream } else w.runtimes r' := fun r' => Function.update_apply ..
  have hst : ∀ k, (Chats.openNew w s r).streams k =
      if k = w.nextStream then ⟨s, r, some false, false, false⟩ else w.streams k := fun k => Function.update_apply ..
  have hkept : ∀ r', ((Chats.openNew w s r).runtimes r').sessionId = (w.runtimes r').sessionId ∧
      ((Chats.openNew w s r).runtimes r').disposed = (w.runtimes r').disposed ∧
      ((Chats.openNew w s r).runtimes r').pageInFlight = (w.runtimes r').pageInFlight ∧
      ((Chats.openNew w s r).runtimes r').pageAbortController = (w.runtimes r').pageAbortController := by
    intro r'
    rw [hrt]
    split
    · rename_i heq
      rw [heq]
      exact ⟨rfl, rfl, rfl, rfl⟩
    · exact ⟨rfl, rfl, rfl, rfl⟩
  have hcan' : ∀ s' r', (Chats.openNew w s r).runtimeCanStream s' r' = w.runtimeCanStream s' r' := by
    intro s' r'
    have hd := (hkept r').2.1
    unfold World.runtimeCanStream
    rw [hd]
    rfl
  have hmade : ∀ k, (w.streams k).stopped = false → k ≠ w.nextStream := by
    intro k hk heq
    rw [h.unopened k heq.ge] at hk
    cases hk
  -- The runtime had no controller, and it is the only one that may have had a stream.
  have hsilent : ∀ k, (w.streams k).stopped = true := h.silent fun s' r' hs' hr' => by
    rw [hfocus] at hs'
    cases hs'
    rw [hreg] at hr'
    cases hr'
    exact hctl
  refine ⟨fun s' r' hr' => ?_, fun r' hr' => ?_, fun r' hr' => ?_, fun r' k hr' hk => ?_, fun k hk => ?_, fun k hk => ?_,
    fun k hk => ?_, fun i t ht => ?_, h.single, fun r' hr' => ?_, h.unstarted, fun i t ht => ?_⟩
  · rw [(hkept r').1, (hkept r').2.1]
    exact h.registered s' r' hr'
  · rw [(hkept r').2.1] at hr'
    rw [(hkept r').1]
    exact h.undisposed r' hr'
  · rw [(hkept r').2.1, (hkept r').2.2.1]
    exact h.unmade r' hr'
  · rw [(hkept r').2.1] at hr'
    rw [(hkept r').1]
    by_cases heq : r' = r
    · rw [hrt, if_pos heq] at hk
      cases hk
      rw [hst, if_pos rfl]
      exact ⟨rfl, heq.symm, (heq ▸ hsession).symm⟩
    rw [hrt, if_neg heq] at hk
    obtain ⟨hstop, -⟩ := h.controlled r' k hr' hk
    rw [hsilent k] at hstop
    cases hstop
  · rw [hst] at hk ⊢
    split at hk
    · rename_i heq
      rw [if_pos heq]
      refine ⟨(hcan' s r).trans hcan, ?_, (hkept r).2.2.1.trans hfree⟩
      rw [hrt, if_pos rfl, heq]
    · rw [hsilent k] at hk
      cases hk
  · rw [hst] at hk ⊢
    split at hk
    · cases hk
    rename_i hne
    rw [if_neg hne]
    exact h.closed k hk
  · have hk' : w.nextStream + 1 ≤ k := hk
    rw [hst, if_neg (by omega)]
    exact h.unopened k (by omega)
  · rw [(hkept _).1, (hkept _).2.2.1, (hkept _).2.2.2]
    exact h.waiting i t ht
  · rw [(hkept r').2.2.1] at hr'
    exact h.inFlight r' hr'
  · rw [(hkept _).1, (hkept _).2.1]
    exact h.older i t ht

theorem Wired.startStream (h : Wired w) (s : String) (r : Nat) : Wired (w.startStream s r) := by
  cases hcan : w.runtimeCanStream s r with
  | false => rwa [startStream_of_not (.inl hcan)]
  | true =>
    cases hfree : (w.runtimes r).pageInFlight with
    | true => rwa [startStream_of_not (.inr hfree)]
    | false =>
      rw [startStream_eq hcan hfree]
      obtain ⟨-, hfoc, hregs, -⟩ := stopRuntimeStream_rest w r
      have hopen := (canStream_iff.mp hcan).2.2
      have hrt := stopRuntimeStream_runtimes w r r
      rw [if_pos rfl] at hrt
      refine (h.stopRuntimeStream hopen).openNew ?_ ?_ (stopRuntimeStream_controller w r)
      · unfold World.runtimeCanStream
        rw [hfoc, hregs, hrt]
        exact hcan
      · rw [hrt]
        exact hfree

theorem Wired.setStream (h : Wired w) (hk : (w.streams k).stopped = false) (f : StreamRuntime → StreamRuntime)
    (hf : ∀ x, (f x).sessionId = x.sessionId ∧ (f x).runtime = x.runtime ∧ (f x).stopped = x.stopped) : Wired (w.setStream k f) := by
  have hst : ∀ k', (w.setStream k f).streams k' = if k' = k then f (w.streams k) else w.streams k' :=
    fun k' => Function.update_apply ..
  have hkept : ∀ k', ((w.setStream k f).streams k').sessionId = (w.streams k').sessionId ∧
      ((w.setStream k f).streams k').runtime = (w.streams k').runtime ∧
      ((w.setStream k f).streams k').stopped = (w.streams k').stopped := by
    intro k'
    rw [hst]
    split
    · rename_i heq
      rw [heq]
      exact hf _
    · exact ⟨rfl, rfl, rfl⟩
  refine ⟨h.registered, h.undisposed, h.unmade, fun r' k' hr' hk' => ?_, fun k' hk' => ?_, fun k' hk' => ?_, fun k' hk' => ?_,
    h.waiting, h.single, h.inFlight, h.unstarted, h.older⟩
  · obtain ⟨h₁, h₂, h₃⟩ := hkept k'
    rw [h₁, h₂, h₃]
    exact h.controlled r' k' hr' hk'
  · obtain ⟨h₁, h₂, h₃⟩ := hkept k'
    rw [h₁, h₂]
    exact h.streaming k' (h₃ ▸ hk')
  · have hne : k' ≠ k := by
      intro heq
      rw [(hkept k').2.2, heq, hk] at hk'
      cases hk'
    rw [(hkept k').2.2] at hk'
    rw [hst, if_neg hne]
    exact h.closed k' hk'
  · rw [(hkept k').2.2]
    exact h.unopened k' hk'

theorem Wired.openStreamInstance (h : Wired w) (hk : (w.streams k).stopped = false) : Wired (w.openStreamInstance k) := by
  refine h.setStream hk _ fun x => ?_
  split <;> exact ⟨rfl, rfl, rfl⟩

theorem Wired.not_stopped (h : Wired w) (hk : (w.streams k).source ≠ none ∨ (w.streams k).timer = true) :
    (w.streams k).stopped = false := by
  cases hs : (w.streams k).stopped with
  | false => rfl
  | true =>
    obtain ⟨hsource, htimer⟩ := h.closed k hs
    rcases hk with hk | hk
    · exact absurd hsource hk
    · rw [htimer] at hk
      cases hk

theorem Wired.reset (h : Wired w) : Wired w.reset := by
  have hrt : ∀ r, w.reset.runtimes r = if w.runtimeBySession (w.runtimes r).sessionId = some r then
      { w.runtimes r with disposed := true, controller := none } else w.runtimes r := fun _ => rfl
  have hkept : ∀ r, (w.reset.runtimes r).sessionId = (w.runtimes r).sessionId ∧
      (w.reset.runtimes r).pageInFlight = (w.runtimes r).pageInFlight ∧
      (w.reset.runtimes r).pageAbortController = (w.runtimes r).pageAbortController ∧ (w.reset.runtimes r).disposed = true := by
    intro r
    rw [hrt]
    split
    · exact ⟨rfl, rfl, rfl, rfl⟩
    rename_i hne
    refine ⟨rfl, rfl, rfl, ?_⟩
    cases hd : (w.runtimes r).disposed with
    | true => rfl
    | false => exact absurd (h.undisposed r hd) hne
  have hall : ∀ k, (w.reset.streams k).stopped = true ∧ (w.reset.streams k).source = none ∧ (w.reset.streams k).timer = false := by
    intro k
    unfold World.reset
    dsimp only
    split
    · exact ⟨rfl, rfl, rfl⟩
    rename_i hne
    have hstop : (w.streams k).stopped = true := by
      cases hk : (w.streams k).stopped with
      | true => rfl
      | false =>
        obtain ⟨hcan, hctl, -⟩ := h.streaming k hk
        obtain ⟨-, hreg, hopen⟩ := canStream_iff.mp hcan
        exact absurd ⟨h.undisposed _ hopen, hctl⟩ hne
    exact ⟨hstop, h.closed k hstop⟩
  refine ⟨fun s r hr => (by cases hr), fun r hr => ?_, fun r hr => ?_, fun r k hr => ?_, fun k hk => ?_, fun k _ => (hall k).2,
    fun k _ => (hall k).1, fun i t ht => ?_, h.single, fun r hr => ?_, h.unstarted, fun i t ht => ?_⟩
  · rw [(hkept r).2.2.2] at hr
    cases hr
  · rw [(hkept r).2.1, (hkept r).2.2.2]
    exact ⟨rfl, (h.unmade r hr).2⟩
  · rw [(hkept r).2.2.2] at hr
    cases hr
  · rw [(hall k).1] at hk
    cases hk
  · rw [(hkept _).1, (hkept _).2.1, (hkept _).2.2.1]
    exact h.waiting i t ht
  · rw [(hkept r).2.1] at hr
    exact h.inFlight r hr
  obtain ⟨hmade, hsession, -⟩ := h.older i t ht
  rw [(hkept _).1, (hkept _).2.2.2]
  exact ⟨hmade, hsession, fun hd => by cases hd⟩

end AgentsRemember.Chats
