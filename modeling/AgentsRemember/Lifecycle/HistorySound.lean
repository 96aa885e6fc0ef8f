import AgentsRemember.Lifecycle.BoundarySound

/-!
# The history of an operation key

Every write carries the flags, the commits and the attempt of the record it
replaces, except a terminal replacement, which starts from a new request. An
update leaves a terminal record alone, except where a worker or a launcher
ends a record that has ended in the same status before.
-/

namespace AgentsRemember.Lifecycle

open Lib

/-- `after` keeps what `before` records. -/
structure Carries (before after : OperationRecord) : Prop where
  claimed : before.approvalClaimed = true → after.approvalClaimed = true
  boundary : before.irreversibleBoundaryEntered = true → after.irreversibleBoundaryEntered = true
  commits : ∀ b, before.recoveryCommits = some b → ∃ c, after.recoveryCommits = some c ∧ b.fillsOnly c = true
  attempt : before.attempt ≤ after.attempt

def Writer.isUpdate : Writer → Bool
  | .update _ => true
  | _ => false

/-- The writes of key `k`, oldest first. -/
def World.writesOf (w : World) (k : String) : List Write := w.writes.filter fun e => e.after.operationKey = k

structure KeyHistory (w : World) (k : String) : Prop where
  carries : (w.writesOf k).Pairwise fun e e' => Carries e.after e'.after
  recovery : ∀ e ∈ w.writesOf k, e.writer = .recovery → ∃ b, e.before = some b ∧ b.attempt < e.after.attempt
  terminal : ∀ e ∈ w.writesOf k, e.writer.isUpdate = true → ∀ b, e.before = some b → b.status.terminal = true → e.after = b

def Update.rewrites (u : Update) (record : OperationRecord) : Bool :=
  match u with
  | finish result ok _ =>
    if ok then record.status = .completed
    else record.status = .failed && !(record.irreversibleBoundaryEntered || result.developerDecisionRequired)
  | launchFailure .. => record.status = .failed
  | _ => false

def OperationRecord.unused (r : OperationRecord) : Bool :=
  !r.approvalClaimed && !r.irreversibleBoundaryEntered && r.recoveryCommits.isNone

structure KeepsHistory (w : World) (a : Action) : Prop where
  publishes : ∀ c, w.publishes a = some c → ∀ e ∈ w.writesOf c.operationKey, e.after.unused = true
  ends : ∀ u, w.asks a = some u → ∀ r, w.store = some r → u.rewrites r = false

/-! ## Carrying -/

theorem keepsCell_refl (a : String) : keepsCell a a = true := by simp [keepsCell]

theorem keepsCell_trans {a b c : String} (h : keepsCell a b = true) (h' : keepsCell b c = true) : keepsCell a c = true := by
  simp only [keepsCell, Bool.or_eq_true, decide_eq_true_eq] at h h' ⊢
  rcases h with h | rfl
  · exact Or.inl h
  · exact h'

theorem fillsOnly_refl (a : RecoveryCommits) : a.fillsOnly a = true := by
  simp [RecoveryCommits.fillsOnly, keepsCell_refl]

theorem fillsOnly_trans {a b c : RecoveryCommits} (h : a.fillsOnly b = true) (h' : b.fillsOnly c = true) :
    a.fillsOnly c = true := by
  simp only [RecoveryCommits.fillsOnly, Bool.and_eq_true] at h h' ⊢
  obtain ⟨⟨h1, h2⟩, h3⟩ := h
  obtain ⟨⟨h1', h2'⟩, h3'⟩ := h'
  exact ⟨⟨keepsCell_trans h1 h1', keepsCell_trans h2 h2'⟩, keepsCell_trans h3 h3'⟩

theorem Carries.trans {a b c : OperationRecord} (h : Carries a b) (h' : Carries b c) : Carries a c where
  claimed := fun ha => h'.claimed (h.claimed ha)
  boundary := fun ha => h'.boundary (h.boundary ha)
  commits := by
    intro x hx
    obtain ⟨y, hy, hxy⟩ := h.commits x hx
    obtain ⟨z, hz, hyz⟩ := h'.commits y hy
    exact ⟨z, hz, fillsOnly_trans hxy hyz⟩
  attempt := Nat.le_trans h.attempt h'.attempt

variable {u : Update} {r r' : OperationRecord}

theorem carries_update (ht : u.transform r = .ok r') (hv : ValidTransition r r') : Carries r r' where
  claimed := hv.approvalClaimed
  boundary := hv.boundary
  commits := hv.recoveryCommits
  attempt := Nat.le_of_eq (Update.transform_attempt ht).symm

theorem carries_requeued (stamp : String) (r : OperationRecord) : Carries r (requeued stamp r) where
  claimed := id
  boundary := id
  commits := fun b hb => ⟨b, hb, fillsOnly_refl b⟩
  attempt := Nat.le_succ _

theorem carries_unused (h : r.unused = true) (ha : r.attempt ≤ r'.attempt) : Carries r r' := by
  simp only [OperationRecord.unused, Bool.and_eq_true, Bool.not_eq_true', Option.isNone_iff_eq_none] at h
  obtain ⟨⟨h1, h2⟩, h3⟩ := h
  exact
    { claimed := fun hc => by rw [h1] at hc; cases hc
      boundary := fun hb => by rw [h2] at hb; cases hb
      commits := fun b hb => by rw [h3] at hb; cases hb
      attempt := ha }

theorem allowed_terminal {s t : OperationStatus} (hs : s.terminal = true) (ht : t ∈ allowed s) : t = s := by
  cases s with
  | queued | running | inputRequired => cases hs
  | completed | failed | cancelled => simpa [allowed] using ht

theorem update_terminal (ht : u.transform r = .ok r') (hv : ValidTransition r r') (hr : r.status.terminal = true)
    (hu : u.rewrites r = false) : r' = r := by
  have hstatus : r'.status = r.status := allowed_terminal hr hv.status
  cases u with
  | start stamp process =>
    cases ht
    unfold running
    rw [if_pos]
    intro hq
    rw [hq] at hr
    cases hr
  | progress phase evidence stamp =>
    cases ht
    unfold advance at hstatus ⊢
    split
    · rfl
    rename_i hc
    rw [if_neg hc] at hstatus
    rw [← show OperationStatus.running = r.status from hstatus] at hr
    cases hr
  | heartbeat stamp command =>
    cases ht
    unfold beat
    rw [if_pos]
    intro hq
    rw [hq] at hr
    cases hr
  | finish result ok stamp =>
    cases ht
    unfold finished at hstatus ⊢
    split
    · rfl
    rename_i hc
    rw [if_neg hc] at hstatus
    cases ok with
    | true =>
      have hdone : OperationStatus.completed = r.status := hstatus
      simp [Update.rewrites, ← hdone] at hu
    | false =>
      by_cases hn : (r.irreversibleBoundaryEntered || result.developerDecisionRequired) = true
      · simp only [Bool.false_eq_true, if_false, hn, if_true] at hstatus
        rw [← hstatus] at hr
        cases hr
      · simp only [Bool.false_eq_true, if_false, hn] at hstatus
        simp [Update.rewrites, ← hstatus, hn] at hu
  | pid launched process =>
    cases ht
    unfold recordPid
    rw [if_neg]
    intro hq
    rw [hq.1] at hr
    cases hr
  | launchFailure error stamp =>
    cases ht
    have hfail : OperationStatus.failed = r.status := hstatus
    simp [Update.rewrites, ← hfail] at hu
  | cancel kind stamp =>
    simp only [Update.transform, requestCancel, hr, if_true] at ht
    cases ht
    rfl

/-! ## One step -/

structure HistoryInv (w : World) : Prop where
  fresh : FreshCalls w
  last : ∀ e ∈ w.writes, ∃ r, w.store = some r ∧ e.after.attempt ≤ r.attempt ∧
    (e.after.operationKey = r.operationKey → Carries e.after r)
  keys : ∀ k, KeyHistory w k

section
variable {hash : Hashing} {clock : Clock} {w w' : World} {a : Action}

variable {writer : Writer} {r : OperationRecord}

theorem carried_write (h : HistoryInv w) (hok : KeepsHistory w a) (hw : Writes hash w a writer r) {e : Write}
    (he : e ∈ w.writes) :
    e.after.attempt ≤ r.attempt ∧ (e.after.operationKey = r.operationKey → Carries e.after r) := by
  obtain ⟨current, hs, hatt, hcar⟩ := h.last e he
  have hthrough : Carries current r → r.operationKey = current.operationKey →
      e.after.attempt ≤ r.attempt ∧ (e.after.operationKey = r.operationKey → Carries e.after r) := by
    intro hc hk
    exact ⟨Nat.le_trans hatt hc.attempt, fun heq => (hcar (heq.trans hk)).trans hc⟩
  cases hw with
  | create hn =>
    rw [hs] at hn
    cases hn
  | @replacement i c r ha hc hr =>
    subst ha
    obtain ⟨current', hs', -, hlt, -⟩ := OperationStore.replaceTerminal_ok hr
    obtain ⟨-, hkey⟩ := OperationStore.replaced_fresh hr (h.fresh c (List.mem_of_getElem? hc))
    rw [hs] at hs'
    cases hs'
    have hle : e.after.attempt ≤ r.attempt := by omega
    refine ⟨hle, fun heq => carries_unused ?_ hle⟩
    exact hok.publishes c (publishes_of hc hr) e (by simp [World.writesOf, he, heq, hkey])
  | recovery hr =>
    obtain ⟨current', hs', rfl⟩ := OperationStore.recovered_spec hr
    rw [hs] at hs'
    cases hs'
    exact hthrough (carries_requeued _ _) rfl
  | update ha hr =>
    obtain ⟨current', hs', ht, hv⟩ := OperationStore.update_ok hr
    rw [hs] at hs'
    cases hs'
    exact hthrough (carries_update ht hv) hv.operationKey

theorem keyHistory_write (h : HistoryInv w) (hok : KeepsHistory w a) (hw : Writes hash w a writer r)
    (hwr : w'.writes = w.writes ++ [⟨writer, w.store, r⟩]) (k : String) : KeyHistory w' k := by
  have hk := h.keys k
  by_cases hkr : r.operationKey = k
  · have hof : w'.writesOf k = w.writesOf k ++ [⟨writer, w.store, r⟩] := by
      simp [World.writesOf, hwr, hkr]
    refine ⟨?_, ?_, ?_⟩
    · rw [hof, List.pairwise_append]
      refine ⟨hk.carries, by simp, fun e he x hx => ?_⟩
      obtain ⟨he, hek⟩ := List.mem_filter.mp he
      rw [List.mem_singleton.mp hx]
      exact (carried_write h hok hw he).2 ((of_decide_eq_true hek).trans hkr.symm)
    · intro e he hrec
      rw [hof] at he
      rcases List.mem_append.mp he with he | he
      · exact hk.recovery e he hrec
      rw [List.mem_singleton.mp he] at hrec ⊢
      cases hw with
      | recovery hr =>
        obtain ⟨current, hs, rfl⟩ := OperationStore.recovered_spec hr
        exact ⟨current, hs, Nat.lt_succ_self _⟩
      | create | replacement | update => cases hrec
    intro e he hupd b hb ht
    rw [hof] at he
    rcases List.mem_append.mp he with he | he
    · exact hk.terminal e he hupd b hb ht
    rw [List.mem_singleton.mp he] at hupd hb ⊢
    cases hw with
    | update ha hr =>
      obtain ⟨current, hs, htr, hv⟩ := OperationStore.update_ok hr
      have hbc : some current = some b := hs.symm.trans hb
      cases hbc
      exact update_terminal htr hv ht (hok.ends _ ha _ hs)
    | create | replacement | recovery => cases hupd
  · have hof : w'.writesOf k = w.writesOf k := by simp [World.writesOf, hwr, hkr]
    exact ⟨hof ▸ hk.carries, hof ▸ hk.recovery, hof ▸ hk.terminal⟩

theorem historyInv_step (h : HistoryInv w) (hok : KeepsHistory w a) (hs : Stepped hash w a w') : HistoryInv w' := by
  have hfresh := freshCalls_step h.fresh hs
  rcases hs.wrote with ⟨hst, hwr⟩ | ⟨writer, r, hw, hst, hwr⟩
  · refine ⟨hfresh, ?_, fun k => ?_⟩
    · rw [hst, hwr]
      exact h.last
    · have hof : w'.writesOf k = w.writesOf k := by rw [World.writesOf, World.writesOf, hwr]
      exact ⟨hof ▸ (h.keys k).carries, hof ▸ (h.keys k).recovery, hof ▸ (h.keys k).terminal⟩
  refine ⟨hfresh, fun e he => ⟨r, hst, ?_⟩, fun k => keyHistory_write h hok hw hwr k⟩
  rw [hwr] at he
  rcases List.mem_append.mp he with he | he
  · exact carried_write h hok hw he
  · rw [List.mem_singleton.mp he]
    exact ⟨Nat.le_refl _, fun _ => ⟨id, id, fun b hb => ⟨b, hb, fillsOnly_refl b⟩, Nat.le_refl _⟩⟩

end

/-- **The history of a key is monotone**, in every run in which no terminal replacement publishes a key that something
was recorded for, and no end is written over the same end. -/
theorem operation_history_monotone (hash : Hashing) (clock : Clock) {w : World}
    (h : Reachable (lifecycleSystem hash clock) KeepsHistory w) (k : String) : KeyHistory w k := by
  refine (h.invariant (I := HistoryInv) ?_ ?_).keys k
  · exact ⟨boundaryInv_init.fresh, by simp [lifecycleSystem, World.init],
      fun k => ⟨.nil, by simp [lifecycleSystem, World.writesOf, World.init],
        by simp [lifecycleSystem, World.writesOf, World.init]⟩⟩
  · intro s a t hi hok hs
    exact historyInv_step hi hok (World.step_cases hs)

/-! ## Two ways to lose history -/

instance (w : World) (a : Action) : Decidable (KeepsHistory w a) :=
  decidable_of_iff
    (((w.publishes a).all fun c => (w.writesOf c.operationKey).all fun e => e.after.unused) &&
      (w.asks a).all fun u => w.store.all fun r => !u.rewrites r) (by
    rw [Bool.and_eq_true, Option.all_eq_true, Option.all_eq_true]
    simp only [List.all_eq_true, Option.all_eq_true, Bool.not_eq_true']
    exact ⟨fun h => ⟨h.1, h.2⟩, fun h => ⟨h.publishes, h.ends⟩⟩)

def firstKey : String :=
  plainHashing.operationKey "/w/contract.md" .closeout (plainHashing.fingerprint (closeoutWith "first")
    (plainHashing.stateFingerprint taskContract) (some "tree"))

theorem second_request_keeps_history :
    ∃ w, checkedRun (lifecycleSystem plainHashing pythonClock) KeepsHistory World.init
        (failedPastBoundary ++ requestAnother) = some w ∧ KeyHistory w firstKey := by
  obtain ⟨w, hw⟩ : ∃ w, checkedRun (lifecycleSystem plainHashing pythonClock) KeepsHistory World.init
      (failedPastBoundary ++ requestAnother) = some w := Option.isSome_iff_exists.mp (by decide)
  exact ⟨w, hw, operation_history_monotone plainHashing pythonClock (steps_of_checkedRun hw) firstKey⟩

/-- The launcher raises after its process started; the worker ends the failed record once more. -/
def failedTwice : List Action :=
  [startWith "first", .spawn 0 11, .begin 0 "t1", .launchFails 0 "lock timeout" "t2",
    .progress 0 .quality {} "t3", .finish 0 { text := "invalid transition" } false "t4"]

def failedTwiceWorld : World :=
  (runFrom (lifecycleSystem plainHashing pythonClock) World.init failedTwice).get (by decide)

theorem history_of_key_lost :
    (¬ ∀ w : World, Reachable (lifecycleSystem plainHashing pythonClock) always w → ∀ k,
      (w.writesOf k).Pairwise fun e e' => Carries e.after e'.after) ∧
    ¬ ∀ w : World, Reachable (lifecycleSystem plainHashing pythonClock) always w → ∀ k, KeyHistory w k := by
  have hr : Reachable (lifecycleSystem plainHashing pythonClock) always cancelledWorld :=
    reachable_of_runFrom (Option.some_get _).symm
  have hr' : Reachable (lifecycleSystem plainHashing pythonClock) always failedTwiceWorld :=
    reachable_of_runFrom (Option.some_get _).symm
  constructor
  · intro hall
    have hflags := (hall cancelledWorld hr firstKey).imp Carries.claimed
    revert hflags
    decide
  intro hall
  have hends := (hall failedTwiceWorld hr' firstKey).terminal
  revert hends
  decide

end AgentsRemember.Lifecycle
