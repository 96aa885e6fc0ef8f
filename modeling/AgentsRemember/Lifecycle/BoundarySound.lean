import AgentsRemember.Lib.Trace
import AgentsRemember.Lifecycle.World

/-!
# Cancellation and the irreversible boundary

An update never cancels a record past its boundary and never clears the
boundary; a recovery keeps it. A terminal replacement publishes a request with
every flag clear and looks only at the status of the record it replaces, so
the boundary of a key holds until the same key is published again.
-/

namespace AgentsRemember.Lifecycle

open Lib

structure Fresh (r : OperationRecord) : Prop where
  status : r.status = .queued
  boundary : r.irreversibleBoundaryEntered = false
  claimed : r.approvalClaimed = false
  commits : r.recoveryCommits = none

theorem fresh_queuedRecord (hash : Hashing) (contract : OperationContract) (input : OperationInput) (tree : Option String)
    (stamp : String) : Fresh (queuedRecord hash contract input tree stamp) := ⟨rfl, rfl, rfl, rfl⟩

def FreshCalls (w : World) : Prop := ∀ c, StartCall.replacing c ∈ w.calls → Fresh c

def World.publishes (w : World) : Action → Option OperationRecord
  | .proceed i =>
    match w.calls[i]?, w.store with
    | some (.replacing candidate), some current =>
      if current.status.terminal && (OperationStore.changedIdentity current candidate).isNone then some candidate else none
    | _, _ => none
  | _ => none

def Writer.isProgress : Writer → Bool
  | .update (.progress ..) => true
  | _ => false

def Writer.isCancel : Writer → Bool
  | .update (.cancel ..) => true
  | _ => false

def Write.enters (k : String) (e : Write) : Bool :=
  e.writer.isProgress && e.after.operationKey = k && e.after.irreversibleBoundaryEntered && e.after.status ≠ .cancelled

def Write.cancels (k : String) (e : Write) : Bool :=
  e.writer.isCancel && e.after.operationKey = k && e.after.status = .cancelled && e.before ≠ some e.after

/-- No replacement publishes a key whose boundary was entered before. -/
def KeepsEntered (w : World) (a : Action) : Prop :=
  ∀ c, w.publishes a = some c → ∀ e ∈ w.writes, e.enters c.operationKey = false

structure Exclusive (w : World) : Prop where
  uncancelled : ∀ r, w.store = some r → r.status = .cancelled → r.irreversibleBoundaryEntered = false
  order : ∀ k, NeverAfter (fun e => e.enters k = true) (fun e => e.cancels k = true) w.writes

structure BoundaryInv (w : World) : Prop where
  fresh : FreshCalls w
  exclusive : Exclusive w
  written : ∀ e ∈ w.writes, w.store ≠ none
  entered : ∀ e ∈ w.writes, ∀ k, e.enters k = true → ∀ r, w.store = some r → r.operationKey = k →
    r.irreversibleBoundaryEntered = true

section
variable {hash : Hashing} {clock : Clock} {w w' : World} {a : Action}

variable {i : Nat} {call : StartCall} {c r : OperationRecord} {store : OperationStore} {k : String} {writer : Writer}

theorem freshCalls_setCall (h : FreshCalls w) (hne : ∀ c, call ≠ .replacing c) : FreshCalls (w.setCall i call) := by
  intro c hc
  rcases List.mem_or_eq_of_mem_set hc with hc | hc
  · exact h c hc
  · exact absurd hc.symm (hne c)

theorem freshCalls_addCall (h : FreshCalls w) (hf : ∀ c, call = .replacing c → Fresh c) :
    FreshCalls (w.addCall call) := by
  intro c hc
  rcases List.mem_append.mp hc with hc | hc
  · exact h c hc
  · exact hf c (List.mem_singleton.mp hc).symm

theorem freshCalls_step (h : FreshCalls w) (hs : Stepped hash w a w') : FreshCalls w' := by
  cases hs with
  | idle | updated | workerMoved | workerUpdated | bodyBegun => exact h
  | created hn => exact freshCalls_addCall (w := w.wrote _ _) h (by simp)
  | asked =>
    refine freshCalls_addCall h fun c hc => ?_
    cases hc
    exact fresh_queuedRecord _ _ _ _ _
  | stale => exact freshCalls_addCall h (by simp)
  | replaced => exact freshCalls_setCall (w := w.wrote _ _) h (by simp)
  | recovered => exact freshCalls_setCall (w := w.wrote _ _) h (by simp)
  | dropped => exact freshCalls_setCall h (by simp)
  | spawned => exact freshCalls_setCall h (by simp)
  | callUpdated => exact freshCalls_setCall (w := w.wrote _ _) h (by simp)

theorem publishes_of (hc : w.calls[i]? = some (.replacing c)) (h : w.store.replaceTerminal c = .ok r) :
    w.publishes (.proceed i) = some c := by
  simp only [World.publishes, hc]
  cases hs : w.store with
  | none =>
    rw [hs] at h
    cases h
  | some current =>
    rw [hs] at h
    unfold OperationStore.replaceTerminal at h
    simp only at h ⊢
    split at h
    · cases h
    rename_i ht
    split at h
    · cases h
    rename_i hi
    simp only [Bool.not_eq_true, Bool.not_eq_false] at ht
    simp [ht, hi]

/-! ## One step -/

theorem OperationStore.replaced_fresh (h : store.replaceTerminal c = .ok r) (hf : Fresh c) :
    Fresh r ∧ r.operationKey = c.operationKey := by
  obtain ⟨current, -, -, -, heq⟩ := OperationStore.replaceTerminal_ok h
  rw [heq]
  exact ⟨{ hf with }, rfl⟩

theorem OperationStore.recovered_spec {stamp : String} {n : Nat}
    (h : store.replaceForRecovery (requeued stamp) n = .ok (r, true)) :
    ∃ current, store = some current ∧ r = requeued stamp current := by
  obtain ⟨current, hs, ⟨hw, -⟩ | ⟨-, hr, -⟩⟩ := OperationStore.replaceForRecovery_ok h
  · cases hw
  · exact ⟨current, hs, hr⟩

theorem cancels_update {u : Update} {current : OperationRecord} (ht : u.transform current = .ok r)
    (hc : Write.cancels k ⟨.update u, some current, r⟩ = true) :
    current.operationKey = k ∧ current.irreversibleBoundaryEntered = false := by
  cases u with
  | cancel kind stamp =>
    simp only [Write.cancels, Bool.and_eq_true, decide_eq_true_eq] at hc
    obtain ⟨⟨⟨-, hk⟩, -⟩, hne⟩ := hc
    simp only [Update.transform, requestCancel] at ht
    split at ht
    · cases ht
      exact absurd rfl hne
    split at ht
    · cases ht
    rename_i hb
    cases ht
    exact ⟨hk, by simpa using hb⟩
  | start | progress | heartbeat | finish | pid | launchFailure => cases hc

theorem entered_write (hf : FreshCalls w) (hw : Writes hash w a writer r)
    (hpub : ∀ c, w.publishes a = some c → c.operationKey ≠ k) (hne : w.store ≠ none)
    (h : ∀ c, w.store = some c → c.operationKey = k → c.irreversibleBoundaryEntered = true) (hk : r.operationKey = k) :
    r.irreversibleBoundaryEntered = true := by
  cases hw with
  | create hn => exact absurd hn hne
  | @replacement i c r ha hc hr =>
    subst ha
    obtain ⟨-, hkey⟩ := OperationStore.replaced_fresh hr (hf c (List.mem_of_getElem? hc))
    exact absurd (hkey.symm.trans hk) (hpub c (publishes_of hc hr))
  | recovery hr =>
    obtain ⟨current, hs, rfl⟩ := OperationStore.recovered_spec hr
    exact h current hs hk
  | update ha hr =>
    obtain ⟨current, hs, -, hv⟩ := OperationStore.update_ok hr
    exact hv.boundary (h current hs (hv.operationKey.symm.trans hk))

theorem uncancelled_write (hf : FreshCalls w) (hw : Writes hash w a writer r) (hr : r.status = .cancelled) :
    r.irreversibleBoundaryEntered = false := by
  cases hw with
  | create hn => rfl
  | @replacement i c r ha hc h => exact (OperationStore.replaced_fresh h (hf c (List.mem_of_getElem? hc))).1.boundary
  | recovery h =>
    obtain ⟨current, -, rfl⟩ := OperationStore.recovered_spec h
    cases hr
  | update ha h =>
    obtain ⟨current, -, ht, hv⟩ := OperationStore.update_ok h
    rw [Update.transform_cancelled ht hr]
    exact hv.uncancelled hr

theorem boundaryInv_init : BoundaryInv World.init where
  fresh := by simp [FreshCalls, World.init]
  exclusive := ⟨by simp [World.init], fun _ => neverAfter_nil⟩
  written := by simp [World.init]
  entered := by simp [World.init]

theorem boundaryInv_step (h : BoundaryInv w) (hok : KeepsEntered w a) (hs : Stepped hash w a w') : BoundaryInv w' := by
  have hfresh := freshCalls_step h.fresh hs
  rcases hs.wrote with ⟨hst, hwr⟩ | ⟨writer, r, hw, hst, hwr⟩
  · refine ⟨hfresh, ⟨?_, ?_⟩, ?_, ?_⟩
    · rw [hst]
      exact h.exclusive.uncancelled
    · rw [hwr]
      exact h.exclusive.order
    · rw [hst, hwr]
      exact h.written
    · rw [hst, hwr]
      exact h.entered
  refine ⟨hfresh, ⟨?_, ?_⟩, ?_, ?_⟩
  · intro r' hr'
    rw [hst] at hr'
    cases hr'
    exact uncancelled_write h.fresh hw
  · intro k
    rw [hwr]
    refine (h.exclusive.order k).concat fun hc e he hen => ?_
    -- a cancellation that took effect saw its record before the boundary
    cases hw with
    | create | replacement | recovery => cases hc
    | update ha hr =>
      obtain ⟨current, hcur, ht, -⟩ := OperationStore.update_ok hr
      rw [hcur] at hc
      obtain ⟨hk, hb⟩ := cancels_update ht hc
      rw [h.entered e he k hen current hcur hk] at hb
      cases hb
  · intro e _
    rw [hst]
    simp
  · intro e he k hen r' hr' hk
    rw [hst] at hr'
    cases hr'
    rw [hwr] at he
    rcases List.mem_append.mp he with he | he
    · refine entered_write h.fresh hw (fun c hc heq => ?_) (h.written e he) (h.entered e he k hen) hk
      have hnot := hok c hc e he
      rw [heq, hen] at hnot
      cases hnot
    rw [List.mem_singleton.mp he] at hen
    simp only [Write.enters, Bool.and_eq_true] at hen
    exact hen.1.2

end

/-- **Cancellation and the boundary exclude each other**, in every run in which no terminal replacement publishes a key
whose boundary was entered before. -/
theorem boundary_excludes_cancel (hash : Hashing) (clock : Clock) {w : World}
    (h : Reachable (lifecycleSystem hash clock) KeepsEntered w) : Exclusive w := by
  refine (h.invariant (I := BoundaryInv) boundaryInv_init ?_).exclusive
  intro s a t hi hok hs
  exact boundaryInv_step hi hok (World.step_cases hs)

/-! ## A key published twice -/

instance (w : World) (a : Action) : Decidable (KeepsEntered w a) :=
  decidable_of_iff ((w.publishes a).all fun c => w.writes.all fun e => !e.enters c.operationKey) (by
    simp [KeepsEntered, Option.all_eq_true, List.all_eq_true])

def plainHashing : Hashing where
  stateFingerprint contract := contract.closeoutStatus ++ contract.codeCommit ++ contract.cleanup
  fingerprint input state tree :=
    match input with
    | .closeout closeout => closeout.codeCommitMessage ++ closeout.approvalNote ++ state ++ tree.getD ""
    | .integrate integrate => integrate.ledgerCommitMessage ++ state
  operationKey path kind fingerprint := path ++ kind.text ++ fingerprint

def taskContract : OperationContract where
  taskId := "t-1"
  taskName := "task"
  contractPath := "/w/contract.md"
  worktreeGroup := "/w"
  closeoutStatus := "open"
  codeCommit := ""
  memoryContentCommit := ""
  ledgerCommit := ""
  integrationStatus := "open"
  integratedCodeCommit := ""
  integratedMemoryContentCommit := ""
  integratedLedgerCommit := ""
  cleanup := "open"

def closeoutWith (message : String) : OperationInput :=
  .closeout { configPath := "/c", contractPath := "/w/contract.md", codeCommitMessage := message, approvalNote := "ok" }

def startWith (message : String) : Action := .start taskContract (closeoutWith message) (some "tree") ⟨0, some 0⟩

/-- A first attempt enters the boundary and stops there; the launcher of its recovery fails. -/
def failedPastBoundary : List Action :=
  [startWith "first", .spawn 0 11, .recordPid 0, .begin 0 "t1",
    .progress 0 .approvalClaim { irreversibleBoundary := true, approvalClaimed := true } "t2",
    .finish 0 { text := "merge refused" } false "t3", .exit 0, startWith "first", .proceed 1, .launchFails 1 "no shell" "t4"]

def requestAnother : List Action := [startWith "second", .proceed 2, .cancel .closeout "t5"]

def requestFirstAgain : List Action := [startWith "first", .proceed 3, .cancel .closeout "t6"]

set_option maxRecDepth 10000 in
theorem second_request_keeps_exclusive :
    ∃ w, checkedRun (lifecycleSystem plainHashing pythonClock) KeepsEntered World.init
        (failedPastBoundary ++ requestAnother) = some w ∧ Exclusive w := by
  obtain ⟨w, hw⟩ : ∃ w, checkedRun (lifecycleSystem plainHashing pythonClock) KeepsEntered World.init
      (failedPastBoundary ++ requestAnother) = some w := Option.isSome_iff_exists.mp (by decide)
  exact ⟨w, hw, boundary_excludes_cancel plainHashing pythonClock (steps_of_checkedRun hw)⟩

def cancelledWorld : World :=
  (runFrom (lifecycleSystem plainHashing pythonClock) World.init
    (failedPastBoundary ++ requestAnother ++ requestFirstAgain)).get (by decide)

theorem cancelled_after_boundary :
    ¬ ∀ w : World, Reachable (lifecycleSystem plainHashing pythonClock) always w → Exclusive w := by
  intro hall
  have hr : Reachable (lifecycleSystem plainHashing pythonClock) always cancelledWorld :=
    reachable_of_runFrom (Option.some_get _).symm
  have horder := (hall cancelledWorld hr).order
    (plainHashing.operationKey "/w/contract.md" .closeout (plainHashing.fingerprint (closeoutWith "first")
      (plainHashing.stateFingerprint taskContract) (some "tree")))
  rw [neverAfter_iff_pairwise] at horder
  revert horder
  decide

end AgentsRemember.Lifecycle
