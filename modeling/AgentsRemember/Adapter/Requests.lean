import AgentsRemember.Harness.Dispatch
import AgentsRemember.Lib.Commands

/-!
# Adapters under the submission authority

An adapter is a machine whose steps run from one await to the next; a step may
end a submit, and says how. The authority puts an operation back to queued when
its submit ended busy, or disconnected and certified not sent, and submits the
same request again later.
-/

namespace AgentsRemember.Adapter

open Lib
open Harness (ControlOperationRef ControlOperationKind ControlState ActivityState AcceptanceState AssetReference
  SubmissionReceipt SendOutcome AdapterResult OperationRecord Authority Config)

structure PromptRequest where
  requestId : String
  text : String
  submittedAt : String
  operation : Option ControlOperationRef
  assets : List AssetReference := []
  deriving DecidableEq

def invokeRequest (r : OperationRecord) : PromptRequest where
  requestId := r.ref.operationId
  text := r.text.getD ""
  submittedAt := r.submittedAt
  operation := some r.ref
  assets := r.assets

def PromptRequest.promptOperation (r : PromptRequest) : Option ControlOperationRef :=
  r.operation.filter fun operation => operation.kind = .prompt

def requeued : SendOutcome → Bool
  | .busy _ => true
  | .disconnected _ mayHaveSent _ => !mayHaveSent
  | _ => false

/-! ## Adapters as machines -/

abbrev Ended := PromptRequest × SendOutcome

structure Machine (σ ι : Type) where
  step : σ → ι → Option (σ × Option Ended)
  /-- The correlation ledger holds the request id. -/
  holds : σ → String → Bool
  /-- The step belongs to a submit of this request id. -/
  submits : ι → Option String
  /-- The steps of a submit from this state that nothing interrupts, with an identity that the adapter's factory mints. -/
  attempt : σ → PromptRequest → String → List ι
  /-- Idle, connected, and with room for the request in the ledger. -/
  idle : σ → PromptRequest → Bool
  /-- The factory may mint this identity for the request: no other has it, and the message fits its frame. -/
  fresh : σ → PromptRequest → String → Bool
  /-- The request ids written to the wire. -/
  wire : σ → List String

namespace Machine

section
variable {σ ι : Type} (A : Machine σ ι)

def system (s : σ) : System σ ι := ⟨s, fun s i => (A.step s i).map Prod.fst⟩

def Retryable (s : σ) (r : PromptRequest) : Prop :=
  A.holds s r.requestId = false ∧ ∀ t minted, Steps (A.system s) (fun _ i => A.submits i ≠ some r.requestId) s t →
    A.idle t r = true → A.fresh t r minted = true →
      ∃ u, runFrom (A.system s) t (A.attempt t r minted) = some u ∧ A.wire u = A.wire t ++ [r.requestId]

/-- In every reachable state, a submit that ends to be queued again can be repeated exactly when the step that ended it
meets the condition. -/
def RetryableExactlyWhen (start : σ → Prop) (meets : σ → ι → Prop) : Prop :=
  ∀ s₀ s, start s₀ → Reachable (A.system s₀) always s → ∀ i t r o, A.step s i = some (t, some (r, o)) →
    requeued o = true → (A.Retryable t r ↔ meets s i)

/-- In every reachable state, a submit that ends to be queued again can be repeated. -/
def RefusalsRetryable (start : σ → Prop) : Prop :=
  ∀ s₀ s, start s₀ → Reachable (A.system s₀) always s → ∀ i t r o, A.step s i = some (t, some (r, o)) →
    requeued o = true → A.Retryable t r

/-- Only a submit of a request makes the ledger hold it, and a submit on an idle adapter of a request that the ledger
does not hold is written. -/
structure Lawful : Prop where
  holds : ∀ {s i t e} {id : String}, A.step s i = some (t, e) → A.submits i ≠ some id → A.holds s id = false →
    A.holds t id = false
  writes : ∀ {s r minted}, A.holds s r.requestId = false → A.idle s r = true → A.fresh s r minted = true →
    ∃ u, runFrom (A.system s) s (A.attempt s r minted) = some u ∧ A.wire u = A.wire s ++ [r.requestId]

variable {A}

theorem runFrom_system (s₀ s₁ : σ) : ∀ (is : List ι) (t : σ), runFrom (A.system s₀) t is = runFrom (A.system s₁) t is
  | [], _ => rfl
  | i :: is, t => by
    simp only [runFrom]
    exact Option.bind_congr fun u _ => runFrom_system s₀ s₁ is u

variable {s : σ}

theorem runFrom_step {s₀ t : σ} {i : ι} {e : Option Ended} {is : List ι} (h : A.step s i = some (t, e)) :
    runFrom (A.system s₀) s (i :: is) = runFrom (A.system s₀) t is := by
  simp [runFrom, system, h]

theorem Lawful.retryable_iff (h : A.Lawful) {r : PromptRequest} : A.Retryable s r ↔ A.holds s r.requestId = false := by
  refine ⟨fun hr => hr.1, fun hout => ⟨hout, fun t minted hrun hidle hfresh => ?_⟩⟩
  have hkept : A.holds t r.requestId = false := by
    refine (Steps.stays (I := fun _ => True) (P := fun v => A.holds v r.requestId = false) (fun _ _ _ _ _ _ => trivial)
      (fun v i u _ hv hok hstep => ?_) hrun trivial hout).2
    obtain ⟨⟨w, e⟩, hw, rfl⟩ := Option.map_eq_some_iff.mp hstep
    exact h.holds hw hok hv
  obtain ⟨u, hu, hwire⟩ := h.writes hkept hidle hfresh
  exact ⟨u, (runFrom_system s t _ t).trans hu, hwire⟩

theorem Lawful.exactlyWhen (h : A.Lawful) {start : σ → Prop} {meets : σ → ι → Prop} {I : σ → Prop}
    (h0 : ∀ s, start s → I s) (hstep : ∀ s i t e, I s → A.step s i = some (t, e) → I t)
    (hrefused : ∀ s i t r o, I s → A.step s i = some (t, some (r, o)) → requeued o = true →
      (A.holds t r.requestId = false ↔ meets s i)) : A.RetryableExactlyWhen start meets := by
  intro s₀ s hs₀ hreach i t r o hi ho
  have hI : I s := by
    refine Reachable.invariant (h0 s₀ hs₀) (fun v j u hv _ hj => ?_) hreach
    obtain ⟨⟨w, e⟩, hw, rfl⟩ := Option.map_eq_some_iff.mp hj
    exact hstep v j w e hv hw
  exact h.retryable_iff.trans (hrefused s i t r o hI hi ho)

end

end Machine

/-! ## Interrupts

What the three adapters share: the acknowledgement, the call under way, and the
bytes of an interrupt beside what is active as they go out.
-/

open Harness (ControlOperationRef)

inductive InterruptAcknowledgement
  | accepted | rejected | unknown

structure InterruptResult where
  acknowledgement : InterruptAcknowledgement
  operation : Option ControlOperationRef
  vendorCorrelationId : String
  detail : Option String

inductive Phase
  -- At the write lock.
  | waiting
  -- Its bytes are out, and its drain has not ended.
  | draining
  | awaiting
  | ended
  deriving DecidableEq

structure InterruptWrite (τ : Type) where
  call : Nat
  expected : Option String
  target : τ
  /-- What was active as the bytes went out. -/
  active : Option τ

def command (expected : Option String) (target : String) (phase : Phase) : Command String :=
  ⟨expected, target, decide (phase = .waiting)⟩

def InterruptWrite.command {τ : Type} (id : τ → String) (w : InterruptWrite τ) : CommandWrite String :=
  ⟨w.expected, id w.target, w.active.map id⟩

def interruptPair (expected : Option String) (active : String) : String × String :=
  ((pyOr expected (some active)).getD "", active)

variable {expected : Option String} {active : String} {α : Type}

theorem interruptPair_named (h : expected = none ∨ expected = some active) :
    interruptPair expected active = (active, active) := by
  rcases h with rfl | rfl
  · rfl
  · simp only [interruptPair, pyOr]
    split <;> rfl

theorem named_of_check (h : ¬ (expected.isSome = true ∧ expected ≠ some active)) :
    expected = none ∨ expected = some active := by
  cases expected with
  | none => exact .inl rfl
  | some e => exact .inr (not_not.mp fun hne => h ⟨rfl, hne⟩)

theorem new_of_filter {last : Option ((String × String) × InterruptResult)}
    (hnamed : expected = none ∨ expected = some active)
    (h : (last.filter fun l => l.1 = interruptPair expected active) = none) :
    last.map Prod.fst ≠ some (active, active) := by
  intro hl
  obtain ⟨l, rfl, hp⟩ := Option.map_eq_some_iff.mp hl
  rw [interruptPair_named hnamed, Option.filter_some, if_pos (decide_eq_true hp)] at h
  cases h

theorem map_modify_command {f : α → α} {g : α → Command String} (hf : ∀ a, g (f a) = Commands.pass (g a)) (l : List α)
    (i : Nat) : (l.modify i f).map g = (l.map g).modify i Commands.pass := by
  refine List.ext_getElem? fun j => ?_
  simp only [List.getElem?_map, List.getElem?_modify]
  cases l[j]? with
  | none => rfl
  | some a =>
    simp only [Option.map_eq_map, Option.map_some]
    split
    · rw [hf]
    · rfl

theorem modify_entered (l : List α) (a : α) (f : α → α) : (l ++ [a]).modify l.length f = l ++ [f a] := by
  refine List.ext_getElem? fun j => ?_
  rcases Nat.lt_trichotomy j l.length with hj | rfl | hj
  · simp [List.getElem?_append_left hj, Nat.ne_of_gt hj]
  · simp
  · simp [List.getElem?_append_right (Nat.le_of_lt hj), Nat.ne_of_lt hj, Nat.sub_eq_zero_iff_le,
      Nat.not_le.mpr hj]

variable {active : Option String} {v : Commands String} {k : Command String} (hactive : active = some k.target)
  (hnamed : k.expected = none ∨ k.expected = some k.target) (hnew : v.last ≠ some (k.target, k.target))
include hactive hnamed hnew

theorem move_refused : v.Move active { v with calls := (v.calls ++ [k]).modify v.calls.length Commands.pass } := by
  rw [modify_entered]
  exact .enter (Commands.pass k) hactive hnamed hnew

theorem move_written : v.Move active { v with
    calls := (v.calls ++ [k]).modify v.calls.length Commands.pass
    writes := v.writes ++ [⟨k.expected, k.target, active⟩] } := by
  rw [modify_entered]
  exact .enterWrite k hactive hnamed hnew

end AgentsRemember.Adapter
