import AgentsRemember.Harness.CompletionSound

/-!
# First come, first served

Operations go to the adapter in the order of their ordinals, and one that still
waits is never overtaken. Only a claim sends, and what it sends heads the
timeline, which its ordinals order.
-/

namespace AgentsRemember.Harness

open Lib

namespace Lane

structure Served (v : Lane) : Prop where
  inOrder : v.history.Pairwise fun e e' => ∀ n m, e = .sent n → e' = .sent m → n ≤ m
  ahead : ∀ n, .sent n ∈ v.history → ∀ k ∈ v.timeline, ∀ m, v.byKey k = some m → n ≤ m

section
variable {v w : Lane} {r r' : OperationRecord} {m : Move} {e : Event}

theorem Served.narrow (h : v.Served) (hh : w.history = v.history) (ht : ∀ k ∈ w.timeline, k ∈ v.timeline)
    (hk : ∀ k n, w.byKey k = some n → v.byKey k = some n) : w.Served :=
  ⟨hh ▸ h.inOrder, fun n hn k hm i hi => h.ahead n (hh ▸ hn) k (ht k hm) i (hk k i hi)⟩

theorem Served.same (h : v.Served) (hh : w.history = v.history) (ht : w.timeline = v.timeline) (hk : w.byKey = v.byKey) :
    w.Served := h.narrow hh (fun _ => ht ▸ id) fun _ _ => hk ▸ id

theorem Served.log (h : v.Served) (he : ∀ n, e ≠ .sent n) : (v.log e).Served := by
  refine ⟨List.pairwise_append.mpr ⟨h.inOrder, List.pairwise_singleton .., ?_⟩, fun n hn => h.ahead n ?_⟩
  · intro x _ y hy n i _ hi
    rw [List.mem_singleton.mp hy] at hi
    exact absurd hi (he i)
  rcases List.mem_append.mp hn with hn | hn
  · exact hn
  · exact absurd (List.mem_singleton.mp hn).symm (he n)

/-- A settled operation leaves the timeline. -/
theorem Served.settle (h : v.Served) (r r' : OperationRecord) :
    (((v.put r').release r.key).log (.settled r.sequence r'.state)).Served :=
  Served.log (h.narrow rfl (fun _ => List.mem_of_mem_erase) fun _ _ => id) (by simp)

theorem Served.enter (hv : v.Traced) (h : v.Served) (hf : v.Fresh r) {t : List OperationKey}
    (ht : ∀ k ∈ t, k ∈ v.timeline ∨ k = r.key) : Served { v.enter r with timeline := t } := by
  refine ⟨h.inOrder, fun n hn k hk i hi => ?_⟩
  replace hi : Function.update v.byKey r.key (some r.sequence) k = some i := hi
  by_cases hkey : k = r.key
  · rw [hkey, Function.update_self, Option.some.injEq] at hi
    have hknown : n ≤ v.sequence := hv.known _ hn
    have hnext := hf.next
    omega
  · rw [Function.update_of_ne hkey] at hi
    exact h.ahead n hn k ((ht k hk).resolve_right hkey) i hi

theorem Served.drop (h : v.Served) : (v.drop r).Served := by
  refine h.narrow (w := v.drop r) rfl (fun _ => id) fun k n hk => ?_
  by_cases hkey : k = r.key
  · simp [Lane.drop, hkey] at hk
  · simpa [Lane.drop, hkey] using hk

theorem Served.claim (hq : v.Queue) (h : v.Served) (hm : v.enabled (.claim r r')) : (v.effect (.claim r r')).Served := by
  obtain ⟨hw, -, hhead, -, hst, -⟩ := hm
  obtain ⟨hkey, hmem⟩ := hq.queued _ _ hw.known hst
  have hleast : ∀ k ∈ v.timeline, ∀ i, v.byKey k = some i → r.sequence ≤ i := by
    intro k hk i hi
    obtain ⟨t, ht⟩ := List.head?_eq_some_iff.mp hhead
    have hordered := hq.ordered
    rw [ht] at hk hordered
    rcases List.mem_cons.mp hk with rfl | hk
    · rw [hkey, Option.some.injEq] at hi
      exact hi.le
    obtain ⟨n, n', hn, hn', hlt⟩ := List.rel_of_pairwise_cons hordered hk
    rw [hkey, Option.some.injEq] at hn
    rw [hi, Option.some.injEq] at hn'
    omega
  refine ⟨List.pairwise_append.mpr ⟨h.inOrder, List.pairwise_singleton .., ?_⟩, fun n hn => ?_⟩
  · intro x hx y hy n i hn hi
    rw [List.mem_singleton.mp hy, Event.sent.injEq] at hi
    exact h.ahead n (hn ▸ hx) r.key hmem i (hi ▸ hkey)
  rcases List.mem_append.mp hn with hn | hn
  · exact h.ahead n hn
  · rw [List.mem_singleton, Event.sent.injEq] at hn
    exact hn ▸ hleast

theorem Served.effect (hv : v.Sound) (h : v.Served) (hm : v.enabled m) : (v.effect m).Served := by
  cases m with
  | enrol r => exact h.enter hv.traced hm.1 fun k hk => by simpa using hk
  | refuse r => exact (h.enter hv.traced hm.1 (t := v.timeline) fun k hk => .inl hk).log (by simp)
  | evict r => exact h.drop
  | claim r r' => exact h.claim hv.queue hm
  | withdraw r r' | dismiss i r r' | resolve r r' | finish r r' => exact (h.settle r r').same rfl rfl rfl
  | observe r r' => exact (h.log (e := .observed r.sequence) (by simp)).same rfl rfl rfl
  | complete r r' =>
    exact ((h.log (e := .observed r.sequence) (by simp)).settle r r').same rfl rfl rfl
  | requeue r r' => exact (h.log (e := .unsent r.sequence) (by simp)).same rfl rfl rfl
  | ask | forget | adopt | note | idle | look | decline | bar | blur | accept | stop => exact h.same rfl rfl rfl

end

end Lane

/-- **Sends follow the ordinals** in every reachable state, and no operation on the timeline has been overtaken. -/
theorem Authority.sent_in_order {c : Config} {s : Authority} (h : Reachable (authoritySystem c) always s) :
    (s.lane c).Served := by
  suffices (s.lane c).Sound ∧ (s.lane c).Served from this.2
  refine Steps.simulated (f := Authority.lane c) (I := fun v => v.Sound ∧ v.Served)
    (fun s a t hs ht => Authority.step_moves hs.1 ht) ?_ h ⟨Authority.sound_init, .nil, fun n hn => by cases hn⟩
  intro s a v m w _ _ hv _ hw
  obtain ⟨hm, rfl⟩ := Lane.step_eq_some.mp hw
  exact ⟨hv.1.step hw, hv.2.effect hv.1 hm⟩

theorem sent_in_order_completed : (completed.lane exampleConfig).Served :=
  Authority.sent_in_order (reachable_of_runFrom runs_acceptedAfterCompletion)

end AgentsRemember.Harness
