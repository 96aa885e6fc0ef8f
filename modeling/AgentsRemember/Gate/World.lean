import AgentsRemember.Lib.System
import AgentsRemember.Lib.Trace
import AgentsRemember.Gate.Store

/-!
# The gate store under any number of processes

A world is the store, every store there was before it, and the history of
approvals and grants. A process that decides or expires a gate computes its
snapshot from logs it read earlier, each at a time of its own, and appends it
now; claims, deletions and compactions are one step each.
-/

namespace AgentsRemember.Gate

open Lib

inductive GateEvent
  | approved (path : LogPath) (id : String)
  | granted (path : LogPath) (id : String) (key : Option String)

namespace GateEvent

def path : GateEvent → LogPath
  | approved p _ => p
  | granted p _ _ => p

def key : GateEvent → Option String
  | approved .. => none
  | granted _ _ k => k

def isApprovalOf (id : String) : GateEvent → Bool
  | approved _ id' => id' = id
  | granted .. => false

def isGrantOf (id : String) : GateEvent → Bool
  | approved .. => false
  | granted _ id' _ => id' = id

end GateEvent

structure World where
  store : GateStore
  past : List GateStore
  history : List GateEvent

inductive GateAction
  | create (kind : GateKind) (gateId now : String) (anchor : GateAnchor) (request : GateRequest)
  | expire (seen : LogPath → Nat) (lifecycleId : Option String) (gateId now : String)
  | decide (seen : LogPath → Nat) (policy : GatePolicy) (gateId : String) (lifecycleId : Option String)
      (verdict : GateVerdict) (evidenceRefs : List GateEvidenceRef) (now : String)
  | claim (lifecycleId : Option String) (kind : GateKind) (now : String) (policy : GatePolicy) (key : Option String)
  | delete (gateId : String) (lifecycleId : Option String)
  | compact (lifecycleId : Option String) (now : Int)

namespace World

def init : World := ⟨GateStore.empty, [], []⟩

def view (w : World) (seen : LogPath → Nat) : GateStore :=
  ⟨w.store.logs.mapKeyed fun p => ((w.store :: w.past).getD (seen p) w.store).log p⟩

def advance (w : World) (store : GateStore) (events : List GateEvent) : World :=
  ⟨store, w.store :: w.past, w.history ++ events⟩

def fresh (w : World) (id : String) : Bool :=
  (w.store :: w.past).all fun s => s.logs.values.all fun log => log.all fun r => r.id ≠ id

/-- The snapshot a writer without the claim's lock appends. -/
def appended (w : World) : GateAction → Option GateRecord
  | .create kind gateId now anchor request =>
    if w.fresh gateId then some (createGate kind gateId now anchor request) else none
  | .expire seen l gateId now =>
    (((w.view seen).current l).get? gateId).bind fun g => if g.state = .open then some (expireGate g now) else none
  | .decide seen policy gateId l verdict evidenceRefs now =>
    match recordGateDecision (w.view seen) policy gateId l verdict evidenceRefs now with
    | .ok updated => some updated
    | .error _ => none
  | _ => none

def approvalEvents (r : GateRecord) : List GateEvent :=
  if r.state = .approved then [.approved (logPath r.lifecycleId) r.id] else []

def step (parse : String → Option Stamp) (w : World) : GateAction → Option World
  | .claim l kind now policy key =>
    let store := (w.store.claimApproval l kind now policy key).2
    match w.store.grantOf l kind policy key with
    | some g => some (w.advance store [.granted (logPath l) g.id key])
    | none => some (w.advance store [])
  | .delete id l => some (w.advance (w.store.delete id l).2 [])
  | .compact l now => some (w.advance (w.store.compact parse l now).2 [])
  | a => (w.appended a).map fun r => w.advance (w.store.append r) (approvalEvents r)

end World

def gateSystem (parse : String → Option Stamp) : System World GateAction := ⟨World.init, World.step parse⟩

def openAndApprove : List GateAction :=
  [.create .closeoutApproval "gate-1" "2026-08-05T10:00:00+00:00" { lifecycleId := some "lc-1" } {},
    .decide (fun _ => 0) defaultGatePolicy "gate-1" (some "lc-1")
      { decision := "approve", via := .dashboard, by' := some humanDecider } [] "2026-08-05T10:05:00+00:00"]

def approvedCloseout : GateRecord where
  id := "gate-1"
  ts := "2026-08-05T10:05:00+00:00"
  kind := .closeoutApproval
  state := .approved
  lifecycleId := some "lc-1"
  decidedBy := some humanDecider
  decidedVia := some .dashboard
  decidedAt := some "2026-08-05T10:05:00+00:00"

namespace World

section
variable {parse : String → Option Stamp} {w w' : World} {a : GateAction}

theorem step_cases (h : w.step parse a = some w') :
    (∃ r, w.appended a = some r ∧ w' = w.advance (w.store.append r) (approvalEvents r)) ∨
    (∃ l kind now policy key g, a = .claim l kind now policy key ∧ w.store.grantOf l kind policy key = some g ∧
      w' = w.advance (w.store.append (applyGate g now key)) [.granted (logPath l) g.id key]) ∨
    w' = w.advance w.store [] ∨
    (∃ id l, a = .delete id l ∧ w' = w.advance (w.store.delete id l).2 []) ∨
    (∃ l now, a = .compact l now ∧ w' = w.advance (w.store.compact parse l now).2 []) := by
  cases a with
  | create kind id now anchor request =>
    obtain ⟨r, hr, rfl⟩ := Option.map_eq_some_iff.mp h
    exact Or.inl ⟨r, hr, rfl⟩
  | expire seen l id now =>
    obtain ⟨r, hr, rfl⟩ := Option.map_eq_some_iff.mp h
    exact Or.inl ⟨r, hr, rfl⟩
  | decide seen policy id l verdict refs now =>
    obtain ⟨r, hr, rfl⟩ := Option.map_eq_some_iff.mp h
    exact Or.inl ⟨r, hr, rfl⟩
  | claim l kind now policy key =>
    simp only [step, GateStore.claimApproval_store] at h
    cases hg : w.store.grantOf l kind policy key with
    | none =>
      rw [hg] at h
      cases h
      exact Or.inr (Or.inr (Or.inl rfl))
    | some g =>
      rw [hg] at h
      cases h
      exact Or.inr (Or.inl ⟨l, kind, now, policy, key, g, rfl, hg, rfl⟩)
  | delete id l =>
    cases h
    exact Or.inr (Or.inr (Or.inr (Or.inl ⟨id, l, rfl, rfl⟩)))
  | compact l now =>
    cases h
    exact Or.inr (Or.inr (Or.inr (Or.inr ⟨l, now, rfl, rfl⟩)))

variable {r : GateRecord}

theorem appended_cases (h : w.appended a = some r) :
    (w.fresh r.id = true ∧ r.state = .open) ∨ (r.state ≠ .open ∧ r.state ≠ .applied) := by
  cases a with
  | create kind id now anchor request =>
    simp only [appended] at h
    split at h
    · rename_i hf
      cases h
      exact Or.inl ⟨hf, rfl⟩
    · cases h
  | expire seen l id now =>
    obtain ⟨g, -, h⟩ := Option.bind_eq_some_iff.mp h
    split at h
    · cases h
      exact Or.inr ⟨by simp [expireGate], by simp [expireGate]⟩
    · cases h
  | decide seen policy id l verdict refs now =>
    simp only [appended] at h
    split at h
    · rename_i hd
      cases h
      obtain ⟨g, p, -, hu, -⟩ := recordGateDecision_ok hd
      exact Or.inr ⟨(decideGate_state hu).1, (decideGate_state hu).2.1⟩
    · cases h
  | claim | delete | compact => cases h

theorem appended_not_applied (h : w.appended a = some r) : r.state ≠ .applied := by
  rcases appended_cases h with ⟨-, hs⟩ | ⟨-, hs⟩
  · simp [hs]
  · exact hs

end

end World

/-! ## The invariant -/

def grants (p : LogPath) (id : String) (h : List GateEvent) : Nat :=
  h.countP fun e => e.isGrantOf id && decide (e.path = p)

def approvals (p : LogPath) (id : String) (h : List GateEvent) : Nat :=
  h.countP fun e => e.isApprovalOf id && decide (e.path = p)

def lastGrantKey (p : LogPath) (id : String) (h : List GateEvent) : Option (Option String) :=
  (h.filter fun e => e.isGrantOf id && decide (e.path = p)).getLast?.map GateEvent.key

def unspent (s : GateStore) (p : LogPath) (id : String) : Nat :=
  if ((s.fold p).get? id).map GateRecord.state = some .approved then 1 else 0

def Routed (s : GateStore) : Prop := ∀ p r, r ∈ s.log p → logPath r.lifecycleId = p

structure Accounted (w : World) : Prop where
  routed : Routed w.store
  budget : ∀ p id, grants p id w.history + unspent w.store p id ≤ approvals p id w.history
  keyed : ∀ p id g, (w.store.fold p).get? id = some g → g.state = .applied →
    lastGrantKey p id w.history = some g.appliedOperation

end AgentsRemember.Gate
