import AgentsRemember.Projection.Loop
import Mathlib.Data.List.Infix

/-!
# No invalidation is lost

A reported change is pending in the pacer, or the tick under way still owes the
snapshots that are read for it, or they have been read since. A tick that raises
while it owes none keeps this; one that raises earlier forgets what it took.
-/

namespace AgentsRemember.Projection

open Lib

def Slot.domains : Slot → List ProjectionDomain
  | .contracts | .enclosures | .taskDocuments | .series | .engineProcessFacts => [.tasks]
  | .lifecycleLogs => [.lifecycles, .tasks]
  | .setupSummaries | .providers | .setupProgress => [.providers]
  | .driftSnapshots => [.drift, .tasks]
  | .gates | .agentPickups | .expectationRows | .attentionDismissals => [.workspace, .lifecycles]
  | .engineStartProgress => [.startProgress]
  | .toolReports => [.toolReports]

section
variable {C V G : Type} (r : Readers C V G)

def Readers.content (s : Slot) (v : V) : V := if s = .engineProcessFacts then r.core v else v

/-- A snapshot is what its reader returns on files that are no older than the last report of a domain it is read for. -/
def World.UpToDate (w : World C V G) (s : Slot) : Prop :=
  ∃ t, t ≤ w.clock ∧ (∀ d ∈ s.domains, w.notified d ≤ t) ∧
    r.content s (w.retained.slot s) = r.content s (r.value (w.past t) w.retained s)

/-- Nothing is lost: with nothing pending and no tick under way every snapshot is up to date. -/
def World.NothingLost (w : World C V G) : Prop :=
  w.running = none → w.pacer.firstPending = false → ∀ s, w.UpToDate r s

def World.Owed (w : World C V G) (s : Slot) : Prop :=
  (∃ d ∈ s.domains, d ∈ w.pacer.pendingDomains) ∨
    ∃ p rest, w.running = some (p, rest) ∧ Instr.read s ∈ rest ∧ p.owes s = true

/-- A tick raises only when it owes no snapshot any more. -/
def Respects (w : World C V G) : Action C → Prop
  | .raise => ∀ p rest, w.running = some (p, rest) → ∀ s, Instr.read s ∈ rest → p.owes s = false
  | _ => True

structure Inv (w : World C V G) : Prop where
  now : w.past w.clock = w.files
  reported : ∀ d, w.notified d ≤ w.clock
  pending : w.pacer.firstPending = false → w.pacer.pendingDomains = []
  left : ∀ p rest, w.running = some (p, rest) → rest ∈ program.tails ∧
    (Instr.admission ∈ rest → p.providersMoved = false ∧ p.enginesMoved = false)
  covered : ∀ s, w.UpToDate r s ∨ w.Owed s

/-! ## The program -/

theorem read_mem_program (s : Slot) : Instr.read s ∈ program := by
  cases s <;> decide

theorem reads_after : ∀ l ∈ program.tails,
    (l.head? = some (.read .contracts) → .read .enclosures ∈ l.tail ∧ .read .engineProcessFacts ∈ l.tail) ∧
      (l.head? = some (.read .enclosures) → .read .taskDocuments ∈ l.tail) ∧
      (l.head? = some .admission → .read .providers ∈ l.tail ∧ .read .setupProgress ∈ l.tail ∧ .read .engineProcessFacts ∈ l.tail ∧
        .admission ∉ l.tail) := by
  decide

variable {rest : List Instr} {s : Slot} {p : Pass} {w : World C V G}

theorem tail_mem_tails {i : Instr} (h : i :: rest ∈ program.tails) : rest ∈ program.tails := by
  rw [List.mem_tails] at h ⊢
  exact (List.suffix_cons i rest).trans h

theorem owes_of_affects {d : ProjectionDomain} {refresh : ProjectionRefresh} (st : Retained V G) (hd : d ∈ s.domains)
    (ha : refresh.affects d = true) : (startPass st refresh).owes s = true := by
  cases s <;> simp only [Slot.domains, List.mem_cons, List.not_mem_nil, or_false] at hd <;>
    rcases hd with rfl | rfl <;> simp [startPass, Pass.owes, Pass.workspace, ha]

theorem value_put (f : Files C) (st : Retained V G) (s₀ s : Slot) (v : V) :
    r.value f (st.put s₀ v) s = r.value f st s ∨ (s₀ = .contracts ∧ (s = .enclosures ∨ s = .engineProcessFacts)) ∨
      (s₀ = .enclosures ∧ s = .taskDocuments) := by
  by_cases hc : s₀ = .contracts
  · subst hc
    cases s <;> simp [Readers.value, Retained.put]
  by_cases he : s₀ = .enclosures
  · subst he
    cases s <;> simp [Readers.value, Retained.put]
  · left
    cases s <;> simp [Readers.value, Retained.put, Function.update_of_ne (Ne.symm hc), Function.update_of_ne (Ne.symm he)]

theorem value_put_self (f : Files C) (st : Retained V G) (s : Slot) (v : V) : r.value f (st.put s v) s = r.value f st s := by
  rcases value_put r f st s s v with h | ⟨rfl, h⟩ | ⟨rfl, h⟩
  · exact h
  · rcases h with h | h <;> cases h
  · cases h

theorem reads_of_owes (h : p.owes s = true) : p.reads s = true := by
  rw [Pass.reads, h, Bool.or_true]

theorem owes_full (st : Retained V G) (s : Slot) : (startPass st fullRefresh).owes s = true := by
  cases s <;> rfl

/-! ## Steps -/

variable {r}

theorem past_advance {t : Nat} (ht : t ≤ w.clock) (f : Files C) :
    Function.update w.past (w.clock + 1) f t = w.past t := by
  apply Function.update_of_ne
  omega

theorem World.UpToDate.mono {w' : World C V G} (h : w.UpToDate r s) (hclock : w.clock ≤ w'.clock)
    (hpast : ∀ t ≤ w.clock, w'.past t = w.past t) (hnotified : ∀ d ∈ s.domains, w'.notified d = w.notified d)
    (hslot : r.content s (w'.retained.slot s) = r.content s (w.retained.slot s))
    (hvalue : ∀ f, r.value f w'.retained s = r.value f w.retained s) : w'.UpToDate r s := by
  obtain ⟨t, ht, hd, heq⟩ := h
  refine ⟨t, ht.trans hclock, fun d hds => ?_, ?_⟩
  · rw [hnotified d hds]
    exact hd d hds
  · rw [hslot, hpast t ht, hvalue]
    exact heq

theorem change_inv (h : Inv r w) (files : Files C) : Inv r (World.advance { w with files := files }) := by
  refine ⟨Function.update_self _ _ _, fun d => (h.reported d).trans (Nat.le_succ _), h.pending, h.left, fun s => ?_⟩
  rcases h.covered s with hup | howed
  · exact .inl (hup.mono (Nat.le_succ _) (fun t ht => past_advance ht _) (fun _ _ => rfl) rfl fun _ => rfl)
  · exact .inr howed

theorem health_inv (h : Inv r w) (healthy : Bool) :
    Inv r (World.advance { w with pacer := { w.pacer with healthy := healthy } }) := by
  refine ⟨Function.update_self _ _ _, fun d => (h.reported d).trans (Nat.le_succ _), h.pending, h.left, fun s => ?_⟩
  rcases h.covered s with hup | howed
  · exact .inl (hup.mono (Nat.le_succ _) (fun t ht => past_advance ht _) (fun _ _ => rfl) rfl fun _ => rfl)
  · exact .inr howed

theorem raise_inv (h : Inv r w) (hr : w.running = some (p, rest)) (hok : ∀ s, Instr.read s ∈ rest → p.owes s = false) :
    Inv r (World.advance { w with running := none }) := by
  refine ⟨Function.update_self _ _ _, fun d => (h.reported d).trans (Nat.le_succ _), h.pending, fun p rest hn => (by cases hn), fun s => ?_⟩
  rcases h.covered s with hup | hpend | ⟨p', rest', hr', hin, howes⟩
  · exact .inl (hup.mono (Nat.le_succ _) (fun t ht => past_advance ht _) (fun _ _ => rfl) rfl fun _ => rfl)
  · exact .inr (.inl hpend)
  rw [hr, Option.some.injEq, Prod.mk.injEq] at hr'
  obtain ⟨rfl, rfl⟩ := hr'
  rw [hok s hin] at howes
  cases howes

theorem wake_inv (h : Inv r w) (hidle : w.running = none) :
    Inv r (World.advance { w with pacer := w.pacer.consumed, running := some (startPass w.retained w.pacer.wake, program) }) := by
  refine ⟨Function.update_self _ _ _, fun d => (h.reported d).trans (Nat.le_succ _), fun _ => rfl, fun p rest hp => ?_, fun s => ?_⟩
  · rw [World.advance, Option.some.injEq, Prod.mk.injEq] at hp
    obtain ⟨rfl, rfl⟩ := hp
    exact ⟨by rw [List.mem_tails], fun _ => ⟨rfl, rfl⟩⟩
  rcases h.covered s with hup | ⟨d, hd, hpend⟩ | howed
  · exact .inl (hup.mono (Nat.le_succ _) (fun t ht => past_advance ht _) (fun _ _ => rfl) rfl fun _ => rfl)
  · right
    right
    refine ⟨_, _, rfl, read_mem_program s, owes_of_affects _ hd ?_⟩
    have hfirst : w.pacer.firstPending = true := by
      by_contra hno
      rw [h.pending (eq_false_of_ne_true hno)] at hpend
      cases hpend
    unfold Pacer.wake
    split
    · cases d <;> rfl
    · simp [changeRefresh, ProjectionRefresh.affects, hpend]
  · obtain ⟨p, rest, hr, -⟩ := howed
    rw [hidle] at hr
    cases hr

section
variable [DecidableEq G]

variable {w : World C V G} {i : Instr} {p : Pass} {rest : List Instr} {s : Slot}

theorem notify_inv {w' : World C V G} (h : Inv r w) {domains : List ProjectionDomain}
    (hs : w.step r (.notify domains) = some w') : Inv r w' := by
  rw [World.step, Option.some.injEq] at hs
  subst hs
  refine ⟨Function.update_self _ _ _, fun d => ?_, fun hn => (by cases hn), h.left, fun s => ?_⟩
  · dsimp only
    split
    · exact Nat.le_refl _
    · exact (h.reported d).trans (Nat.le_succ _)
  by_cases hd : ∃ d ∈ s.domains, d ∈ domains
  · obtain ⟨d, hds, hd⟩ := hd
    exact .inr (.inl ⟨d, hds, List.mem_append_right _ hd⟩)
  rcases h.covered s with hup | ⟨d, hds, hpend⟩ | howed
  · left
    refine hup.mono (Nat.le_succ _) (fun t ht => past_advance ht _) (fun d hds => ?_) rfl fun _ => rfl
    have hno : ¬domains.contains d = true := fun hc => hd ⟨d, hds, List.contains_iff_mem.mp hc⟩
    exact if_neg hno
  · exact .inr (.inl ⟨d, hds, List.mem_append_left _ hpend⟩)
  · exact .inr (.inr howed)

theorem exec_pass (t : Tick C V G) (hi : i ≠ .admission) : (r.exec t i).pass = t.pass := by
  cases i with
  | admission => exact absurd rfl hi
  | finish => rfl
  | read s =>
    simp only [Readers.exec]
    split <;> rfl
  | pruneLogs =>
    simp only [Readers.exec]
    split <;> rfl
  | pruneDrift =>
    simp only [Readers.exec]
    split <;> rfl

theorem call_owed (hin : Instr.read s ∈ rest) (howes : (r.exec ⟨w.files, w.retained, p⟩ i).pass.owes s = true) :
    (World.advance (w.call r p i rest)).Owed s := by
  right
  refine ⟨_, rest, ?_, hin, howes⟩
  unfold World.advance World.call
  dsimp only
  rw [if_neg]
  rintro rfl
  cases hin

theorem call_pending (h : ∃ d ∈ s.domains, d ∈ w.pacer.pendingDomains) :
    (World.advance (w.call r p i rest)).Owed s := .inl h

theorem call_same (h : Inv r w) (hr : w.running = some (p, i :: rest))
    (hretained : (r.exec ⟨w.files, w.retained, p⟩ i).retained = w.retained)
    (hpass : (r.exec ⟨w.files, w.retained, p⟩ i).pass = p) (hread : ∀ s, i = .read s → p.reads s = false) (s : Slot) :
    (World.advance (w.call r p i rest)).UpToDate r s ∨ (World.advance (w.call r p i rest)).Owed s := by
  have hre : (World.advance (w.call r p i rest)).retained = w.retained := hretained
  rcases h.covered s with hup | hpend | ⟨p', rest', hr', hin, howes⟩
  · left
    exact hup.mono (Nat.le_succ _) (fun t ht => past_advance ht _) (fun _ _ => rfl) (by rw [hre]) fun _ => by rw [hre]
  · exact .inr (call_pending hpend)
  right
  rw [hr, Option.some.injEq, Prod.mk.injEq] at hr'
  obtain ⟨rfl, rfl⟩ := hr'
  rcases List.mem_cons.mp hin with hhead | hin
  · have hreads := reads_of_owes howes
    rw [hread s hhead.symm] at hreads
    cases hreads
  · exact call_owed hin (by rw [hpass]; exact howes)

theorem call_read (h : Inv r w) {s₀ : Slot} (hr : w.running = some (p, .read s₀ :: rest)) (hreads : p.reads s₀ = true)
    (s : Slot) :
    (World.advance (w.call r p (.read s₀) rest)).UpToDate r s ∨ (World.advance (w.call r p (.read s₀) rest)).Owed s := by
  have hexec : r.exec ⟨w.files, w.retained, p⟩ (.read s₀) =
      ⟨w.files, w.retained.put s₀ (r.refreshed w.files w.retained p s₀), p⟩ := if_pos hreads
  have hretained : (World.advance (w.call r p (.read s₀) rest)).retained = w.retained.put s₀ (r.refreshed w.files w.retained p s₀) := by
    unfold World.advance World.call
    dsimp only
    rw [hexec]
  have hpast : ∀ t ≤ w.clock, (World.advance (w.call r p (.read s₀) rest)).past t = w.past t := fun t ht => past_advance ht _
  have hslot : ∀ v : V, (w.retained.put s₀ v).slot s₀ = v := fun v => Function.update_self _ _ _
  have hpass : (r.exec ⟨w.files, w.retained, p⟩ (.read s₀)).pass = p := by rw [hexec]
  have htails := (h.left p _ hr).1
  by_cases hs : s = s₀
  · subst hs
    by_cases hland : s = .engineProcessFacts ∧ p.owes s = false
    · -- a heartbeat renews the landing only
      obtain ⟨rfl, howes⟩ := hland
      have hval : r.refreshed w.files w.retained p .engineProcessFacts =
          r.landing w.files.elsewhere (w.retained.slot .engineProcessFacts) (w.retained.slot .contracts) := if_pos ⟨rfl, howes⟩
      rcases h.covered .engineProcessFacts with hup | hpend | ⟨p', rest', hr', hin, howes'⟩
      · left
        refine hup.mono (Nat.le_succ _) hpast (fun _ _ => rfl) ?_ fun f => ?_
        · rw [hretained, hslot, hval]
          exact r.landing_core _ _ _
        · rw [hretained, value_put_self]
      · exact .inr (call_pending hpend)
      rw [hr, Option.some.injEq, Prod.mk.injEq] at hr'
      rw [← hr'.1, howes] at howes'
      cases howes'
    · left
      have hval : r.refreshed w.files w.retained p s = r.value w.files w.retained s := if_neg hland
      refine ⟨w.clock, Nat.le_succ _, fun d _ => h.reported d, ?_⟩
      rw [hretained, hslot, hval, hpast _ (Nat.le_refl _), h.now, value_put_self]
  · rcases h.covered s with hup | hpend | ⟨p', rest', hr', hin, howes⟩
    · have hother : ∀ v : V, (w.retained.put s₀ v).slot s = w.retained.slot s := fun v => Function.update_of_ne hs _ _
      by_cases hdep : (s₀ = .contracts ∧ (s = .enclosures ∨ s = .engineProcessFacts)) ∨ (s₀ = .enclosures ∧ s = .taskDocuments)
      · right
        obtain ⟨hcon, henc, -⟩ := reads_after _ htails
        rcases hdep with ⟨rfl, rfl | rfl⟩ | ⟨rfl, rfl⟩
        · exact call_owed (hcon rfl).1 (by rw [hpass]; simpa [Pass.reads, Slot.onHeartbeat, Pass.owes] using hreads)
        · have htasks : p.tasksChanged = true := by simpa [Pass.reads, Slot.onHeartbeat, Pass.owes] using hreads
          exact call_owed (hcon rfl).2 (by rw [hpass]; simp [Pass.owes, htasks])
        · exact call_owed (henc rfl) (by rw [hpass]; simpa [Pass.reads, Slot.onHeartbeat, Pass.owes] using hreads)
      left
      refine hup.mono (Nat.le_succ _) hpast (fun _ _ => rfl) ?_ fun f => ?_
      · rw [hretained, hother]
      · rw [hretained]
        exact (value_put r f w.retained s₀ s _).resolve_right hdep
    · exact .inr (call_pending hpend)
    · right
      rw [hr, Option.some.injEq, Prod.mk.injEq] at hr'
      obtain ⟨rfl, rfl⟩ := hr'
      rcases List.mem_cons.mp hin with hhead | hin
      · cases hhead
        exact absurd rfl hs
      · exact call_owed hin (by rw [hpass]; exact howes)

theorem call_admission (h : Inv r w) (hr : w.running = some (p, .admission :: rest)) (s : Slot) :
    (World.advance (w.call r p .admission rest)).UpToDate r s ∨ (World.advance (w.call r p .admission rest)).Owed s := by
  obtain ⟨htails, hmoved⟩ := h.left p _ hr
  obtain ⟨hprov, hengine⟩ := hmoved List.mem_cons_self
  obtain ⟨-, -, hafter⟩ := reads_after _ htails
  obtain ⟨hin₁, hin₂, hin₃, -⟩ := hafter rfl
  generalize hq : (r.exec ⟨w.files, w.retained, p⟩ .admission).pass = q
  generalize hst : (r.exec ⟨w.files, w.retained, p⟩ .admission).retained = st
  have hretained : (World.advance (w.call r p .admission rest)).retained = st := hst
  have hslots : st.slot = w.retained.slot := by rw [← hst]; rfl
  have hrefresh : q.refresh = p.refresh ∧ q.tasksChanged = p.tasksChanged := by rw [← hq]; exact ⟨rfl, rfl⟩
  have hgroupsP : q.providersMoved = false → st.providerGroups = w.retained.providerGroups := by
    rw [← hq, ← hst]
    intro hd
    by_contra hne
    exact absurd (of_decide_eq_false hd) (not_not.mpr hne)
  have hgroupsE : q.enginesMoved = false → st.engineGroups = w.retained.engineGroups := by
    rw [← hq, ← hst]
    intro hd
    by_contra hne
    exact absurd (of_decide_eq_false hd) (not_not.mpr hne)
  have howes : p.owes s = true → q.owes s = true := by
    cases s <;> simp only [Pass.owes, Pass.workspace, hrefresh.1, hrefresh.2, hprov, hengine, Bool.or_false] <;>
      intro hp <;> simp [hp]
  rcases h.covered s with hup | hpend | ⟨p', rest', hr', hin, howes'⟩
  · by_cases hmove : (q.providersMoved = true ∧ (s = .providers ∨ s = .setupProgress)) ∨ (q.enginesMoved = true ∧ s = .engineProcessFacts)
    · right
      rcases hmove with ⟨hm, rfl | rfl⟩ | ⟨hm, rfl⟩
      · exact call_owed hin₁ (by rw [hq]; simp [Pass.owes, hm])
      · exact call_owed hin₂ (by rw [hq]; simp [Pass.owes, hm])
      · exact call_owed hin₃ (by rw [hq]; simp [Pass.owes, hm])
    left
    refine hup.mono (Nat.le_succ _) (fun t ht => past_advance ht _) (fun _ _ => rfl) (by rw [hretained, hslots]) fun f => ?_
    rw [hretained]
    obtain ⟨hp, he⟩ := not_or.mp hmove
    cases s <;> simp only [Readers.value, hslots]
    · rw [hgroupsP (by simpa using hp)]
    · rw [hgroupsP (by simpa using hp)]
    · rw [hgroupsE (by simpa using he)]
  · exact .inr (call_pending hpend)
  · right
    rw [hr, Option.some.injEq, Prod.mk.injEq] at hr'
    obtain ⟨rfl, rfl⟩ := hr'
    rcases List.mem_cons.mp hin with hhead | hin
    · cases hhead
    · exact call_owed hin (by rw [hq]; exact howes howes')

theorem call_inv (h : Inv r w) (hr : w.running = some (p, i :: rest)) : Inv r (World.advance (w.call r p i rest)) := by
  obtain ⟨htails, hmoved⟩ := h.left p _ hr
  refine ⟨Function.update_self _ _ _, fun d => (h.reported d).trans (Nat.le_succ _), h.pending, fun q more hq => ?_, fun s => ?_⟩
  · unfold World.advance World.call at hq
    dsimp only at hq
    split at hq
    · cases hq
    rw [Option.some.injEq, Prod.mk.injEq] at hq
    obtain ⟨rfl, rfl⟩ := hq
    refine ⟨tail_mem_tails htails, fun hin => ?_⟩
    have hi : i ≠ .admission := by
      rintro rfl
      exact absurd hin ((reads_after _ htails).2.2 rfl).2.2.2
    rw [exec_pass _ hi]
    exact hmoved (List.mem_cons_of_mem _ hin)
  · cases i with
    | read s₀ =>
      cases hreads : p.reads s₀ with
      | true => exact call_read h hr hreads s
      | false =>
        have hexec : r.exec ⟨w.files, w.retained, p⟩ (.read s₀) = ⟨w.files, w.retained, p⟩ := if_neg (by simp [hreads])
        apply call_same h hr (by rw [hexec]) (by rw [hexec])
        intro s' hs'
        cases hs'
        exact hreads
    | pruneLogs =>
      apply call_same h hr
      · simp only [Readers.exec]
        split <;> rfl
      · exact exec_pass _ nofun
      · nofun
    | admission => exact call_admission h hr s
    | pruneDrift =>
      apply call_same h hr
      · simp only [Readers.exec]
        split <;> rfl
      · exact exec_pass _ nofun
      · nofun
    | finish =>
      apply call_same h hr rfl rfl
      nofun

theorem step_inv {files : Files C} {empty : Retained V G} (w : World C V G) (a : Action C) (w' : World C V G) (h : Inv r w)
    (hok : Respects w a) (hs : (projectorSystem r files empty).step w a = some w') : Inv r w' := by
  have hstep : w.step r a = some w' := hs
  cases a with
  | change files =>
    obtain rfl := Option.some.inj hstep
    exact change_inv h files
  | notify domains => exact notify_inv h hstep
  | setWatcherHealthy healthy =>
    obtain rfl := Option.some.inj hstep
    exact health_inv h healthy
  | wake =>
    cases hr : w.running with
    | some q => simp only [World.step, hr, reduceCtorEq] at hstep
    | none =>
      simp only [World.step, hr, Option.some.injEq] at hstep
      subst hstep
      exact wake_inv h hr
  | call =>
    rcases hr : w.running with _ | ⟨p, _ | ⟨i, rest⟩⟩
    · simp only [World.step, hr, reduceCtorEq] at hstep
    · simp only [World.step, hr, reduceCtorEq] at hstep
    simp only [World.step, hr, Option.some.injEq] at hstep
    subst hstep
    exact call_inv h hr
  | raise =>
    rcases hr : w.running with _ | ⟨p, rest⟩
    · simp only [World.step, hr, reduceCtorEq] at hstep
    simp only [World.step, hr, Option.some.injEq] at hstep
    subst hstep
    exact raise_inv h hr (hok p rest hr)

theorem init_inv (files : Files C) (empty : Retained V G) : Inv r (projectorSystem r files empty).init := by
  refine ⟨rfl, fun _ => Nat.le_refl _, fun _ => rfl, fun p rest hr => ?_, fun s => .inr (.inr ⟨_, _, rfl, read_mem_program s, owes_full _ s⟩)⟩
  obtain ⟨rfl, rfl⟩ := Prod.mk.inj (Option.some.inj hr)
  exact ⟨by rw [List.mem_tails], fun _ => ⟨rfl, rfl⟩⟩

/-- **No invalidation is lost where ticks raise only when they owe nothing.** -/
theorem nothing_lost {files : Files C} {empty : Retained V G} {w : World C V G} (h : Reachable (projectorSystem r files empty) Respects w) :
    w.NothingLost r := by
  have hinv : Inv r w := h.invariant (init_inv files empty) step_inv
  intro hidle hnone s
  rcases hinv.covered s with hup | ⟨d, -, hpend⟩ | ⟨p, rest, hr, -⟩
  · exact hup
  · rw [hinv.pending hnone] at hpend
    cases hpend
  · rw [hidle] at hr
    cases hr

end

end

/-! ## A tick that raises before it has read the drift -/

def versionReaders : Readers Nat Nat Nat where
  contracts tasks := tasks
  enclosures tasks _ _ := tasks
  taskDocuments tasks _ := tasks
  series tasks := tasks
  pruneLogs logs _ := logs
  lifecycleLogs logs := logs
  admittedGroups _ _ _ := 0
  activeGroups _ _ _ := 0
  setupSummaries setup := setup
  providers status _ _ := status
  setupProgress status _ _ := status
  engineFacts _ _ contracts := contracts
  landing _ facts _ := facts
  core facts := facts
  landing_core _ _ _ := rfl
  pruneDrift drift _ := drift
  driftSnapshots drift := drift
  gates _ workspace := workspace
  agentPickups workspace := workspace
  expectationRows workspace := workspace
  attentionDismissals workspace := workspace
  startProgress entries := entries
  toolReports reports := reports

def firstFiles : Files Nat := ⟨fun _ => 0, 0⟩

def versionSystem : System (World Nat Nat Nat) (Action Nat) :=
  projectorSystem versionReaders firstFiles ⟨fun _ => 0, false, 0, 0⟩

def wholeTick : List (Action Nat) := List.replicate program.length .call

theorem prime_completes : (runFrom versionSystem versionSystem.init wholeTick).any (fun w => w.running.isNone) = true := by decide +kernel

theorem nothing_lost_primed : ∃ w, runFrom versionSystem versionSystem.init wholeTick = some w ∧ w.running = none ∧ w.NothingLost versionReaders := by
  obtain ⟨w, hw, hnone⟩ := (Option.any_eq_true _ _).mp prime_completes
  refine ⟨w, hw, Option.isNone_iff_eq_none.mp hnone, nothing_lost (steps_of_runFrom (fun a ha u => ?_) hw)⟩
  rw [List.eq_of_mem_replicate ha]
  trivial

def raisingRun : List (Action Nat) :=
  wholeTick ++ [.setWatcherHealthy true, .change (firstFiles.set .drift 1), .notify [.drift], .wake, .raise, .wake] ++ wholeTick

def driftForgotten (w : World Nat Nat Nat) : Bool :=
  (w.running.isNone && !w.pacer.firstPending) && (w.retained.slot .driftSnapshots = 0 &&
    (List.range (w.clock + 1)).all fun t => decide (w.notified .drift ≤ t → (w.past t).root .drift = 1))

theorem raising_run_forgets : (runFrom versionSystem versionSystem.init raisingRun).any driftForgotten = true := by decide +kernel

/-- The change of the drift snapshots was reported, the tick that took it raised, and the next one succeeded. -/
theorem raising_tick_loses : ¬ ∀ w, Reachable versionSystem always w → w.NothingLost versionReaders := by
  intro h
  obtain ⟨w, hw, hforgot⟩ := (Option.any_eq_true _ _).mp raising_run_forgets
  simp only [driftForgotten, Bool.and_eq_true, Bool.not_eq_true', Option.isNone_iff_eq_none, decide_eq_true_eq, List.all_eq_true] at hforgot
  obtain ⟨⟨hidle, hnone⟩, hslot, hfiles⟩ := hforgot
  obtain ⟨t, ht, hd, heq⟩ := h w (reachable_of_runFrom hw) hidle hnone .driftSnapshots
  have hnew := hfiles t (List.mem_range.mpr (Nat.lt_succ_of_le ht)) (hd .drift (by decide))
  have hold : w.retained.slot .driftSnapshots = (w.past t).root .drift := heq
  rw [hslot, hnew] at hold
  cases hold

end AgentsRemember.Projection
