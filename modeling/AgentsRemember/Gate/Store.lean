import AgentsRemember.Lib.FoldLog
import AgentsRemember.Gate.Policy

/-!
# Gate retention

Which gates a compaction keeps. An applied gate of a consumed kind is the only
proof that its approval was spent and has no age limit; withdrawn and replaced
gates go at once; the others age out.
-/

namespace AgentsRemember.Gate

open Lib

def interactionRecordTtl : Int := 24 * 60 * 60 * 1000000

def mutatingToolGateKinds : List GateKind :=
  [.worktreeIntent, .closeoutApproval, .pushApproval, .integrationApproval, .cleanupApproval]

def seamConsumedGateKinds : List GateKind := [.masterHandoverApproval]

def consumedApprovalGateKinds : List GateKind := mutatingToolGateKinds ++ seamConsumedGateKinds

def pruneImmediateGateStates : List GateState := [.cancelled, .expired]

def foldGates (records : List GateRecord) : Dict String GateRecord := foldLog GateRecord.id (fun _ _ => false) records

section
variable (parse : String → Option Stamp)

def keepGate (gate : GateRecord) (now : Int) : Bool :=
  if gate.state = .applied then gate.kind ∈ consumedApprovalGateKinds
  else if gate.state ∈ pruneImmediateGateStates then false
  else match ageMicros parse gate.ts now with
    | none => true
    | some age => age ≤ interactionRecordTtl

def gateKeepIds (records : List GateRecord) (now : Int) : List String :=
  ((foldGates records).values.filter fun gate => keepGate parse gate now).map GateRecord.id

def compactGates (records : List GateRecord) (now : Int) : List GateRecord :=
  records.filter fun record => record.id ∈ gateKeepIds parse records now

end

/-! ## The fold -/

variable {records : List GateRecord} {id : String} {g : GateRecord} {kind : GateKind} {l : Option String}
  {parse : String → Option Stamp} {now : Int}

theorem foldGates_mem (h : (foldGates records).get? id = some g) : g ∈ records ∧ g.id = id := foldLog_mem _ _ h

theorem mem_foldGates :
    g ∈ (foldGates records).values ↔ (foldGates records).get? g.id = some g := mem_foldLog_values _ _

theorem foldGates_concat (records : List GateRecord) (r : GateRecord) (id : String) :
    (foldGates (records ++ [r])).get? id = if r.id = id then some r else (foldGates records).get? id := by
  rw [foldGates, get?_foldLog_concat, supersede_last]
  rfl

theorem foldGates_filter (p : String → Bool) (records : List GateRecord) (id : String) :
    (foldGates (records.filter fun r => p r.id)).get? id = if p id then (foldGates records).get? id else none :=
  get?_foldLog_filter _ _ p records id

theorem relevantGates_filter (p : String → Bool) (records : List GateRecord) (kind : GateKind) :
    relevantGates (foldGates (records.filter fun r => p r.id)) kind =
      (relevantGates (foldGates records) kind).filter fun g => p g.id := by
  unfold relevantGates foldGates
  rw [values_foldLog_filter, List.filter_filter, List.filter_filter]
  exact List.filter_congr fun g _ => Bool.and_comm _ _

theorem governingGate_filter (p : String → Bool) (h : governingGate (foldGates records) kind = some g)
    (hp : p g.id = true) : governingGate (foldGates (records.filter fun r => p r.id)) kind = some g := by
  rw [governingGate, relevantGates_filter]
  exact firstMaxOn_filter _ _ h hp

theorem governingGate_fold (h : governingGate (foldGates records) kind = some g) :
    (foldGates records).get? g.id = some g ∧ g.kind = kind :=
  ⟨mem_foldGates.mp (governingGate_mem h).1, (governingGate_mem h).2⟩

/-! ## Compaction -/

section
variable {parse : String → Option Stamp} {records : List GateRecord} {now : Int}

variable {id : String} {g : GateRecord}

theorem mem_gateKeepIds :
    id ∈ gateKeepIds parse records now ↔ ∃ g, (foldGates records).get? id = some g ∧ keepGate parse g now = true := by
  simp only [gateKeepIds, List.mem_map, List.mem_filter, mem_foldGates]
  constructor
  · intro hex
    obtain ⟨g, ⟨hg, hk⟩, rfl⟩ := hex
    exact ⟨g, hg, hk⟩
  intro hex
  obtain ⟨g, hg, hk⟩ := hex
  have hid : g.id = id := (foldGates_mem hg).2
  exact ⟨g, ⟨hid ▸ hg, hk⟩, hid⟩

theorem foldGates_compact (id : String) :
    (foldGates (compactGates parse records now)).get? id =
      if id ∈ gateKeepIds parse records now then (foldGates records).get? id else none := by
  have h := foldGates_filter (fun id => decide (id ∈ gateKeepIds parse records now)) records id
  simpa only [compactGates, decide_eq_true_eq] using h

theorem foldGates_compact_of_keep (h : (foldGates records).get? id = some g) (hk : keepGate parse g now = true) :
    (foldGates (compactGates parse records now)).get? id = some g := by
  rw [foldGates_compact, if_pos (mem_gateKeepIds.mpr ⟨g, h, hk⟩), h]

theorem foldGates_of_compact (h : (foldGates (compactGates parse records now)).get? id = some g) :
    (foldGates records).get? id = some g ∧ keepGate parse g now = true := by
  rw [foldGates_compact] at h
  split at h
  · rename_i hk
    obtain ⟨g', hg', hkeep⟩ := mem_gateKeepIds.mp hk
    rw [h] at hg'
    cases hg'
    exact ⟨h, hkeep⟩
  · cases h

theorem evaluateGate_compact {kind : GateKind} (h : governingGate (foldGates records) kind = some g)
    (hk : keepGate parse g now = true) (policy : GatePolicy) (key : Option String) :
    evaluateGate (foldGates (compactGates parse records now)) kind policy key =
      evaluateGate (foldGates records) kind policy key := by
  have hid : g.id ∈ gateKeepIds parse records now := mem_gateKeepIds.mpr ⟨g, (governingGate_fold h).1, hk⟩
  have hc : governingGate (foldGates (compactGates parse records now)) kind = some g :=
    governingGate_filter (fun id => decide (id ∈ gateKeepIds parse records now)) h (decide_eq_true hid)
  rw [evaluateGate_of_governing hc, evaluateGate_of_governing h]

theorem keepGate_applied (hs : g.state = .applied) (hk : g.kind ∈ consumedApprovalGateKinds) :
    keepGate parse g now = true := by
  rw [keepGate, if_pos hs]
  exact decide_eq_true hk

/-- A gate within the age limit, or with a stamp that cannot be read. -/
def NotAged (parse : String → Option Stamp) (g : GateRecord) (now : Int) : Prop :=
  ∀ age, ageMicros parse g.ts now = some age → age ≤ interactionRecordTtl

theorem keepGate_notAged (hs : g.state ≠ .applied) (hp : g.state ∉ pruneImmediateGateStates) (ha : NotAged parse g now)
    : keepGate parse g now = true := by
  rw [keepGate, if_neg hs, if_neg hp]
  cases hage : ageMicros parse g.ts now with
  | none => rfl
  | some age => exact decide_eq_true (ha age hage)

end

/-! ## The gate store

One append-only log per lifecycle, and one for the gates without a lifecycle.
Each operation below runs under the lock of its log. `claimApproval` folds,
judges and appends under one lock; a decision reads first and appends later.
-/

inductive LogPath
  | workspace
  | lifecycle (id : String)
  deriving DecidableEq

def logPath (lifecycleId : Option String) : LogPath :=
  if truthy lifecycleId then .lifecycle (lifecycleId.getD "") else .workspace

structure GateStore where
  logs : Dict LogPath (List GateRecord)

namespace GateStore

def empty : GateStore := ⟨Dict.empty⟩

def log (s : GateStore) (path : LogPath) : List GateRecord := (s.logs.get? path).getD []

def read (s : GateStore) (lifecycleId : Option String) : List GateRecord := s.log (logPath lifecycleId)

def fold (s : GateStore) (path : LogPath) : Dict String GateRecord := foldGates (s.log path)

def current (s : GateStore) (lifecycleId : Option String) : Dict String GateRecord := foldGates (s.read lifecycleId)

def replace (s : GateStore) (lifecycleId : Option String) (records : List GateRecord) : GateStore :=
  ⟨s.logs.set (logPath lifecycleId) records⟩

def append (s : GateStore) (record : GateRecord) : GateStore :=
  s.replace record.lifecycleId (s.read record.lifecycleId ++ [record])

def lifecycleIds (s : GateStore) : List String :=
  (s.logs.keys.filterMap fun
    | .workspace => none
    | .lifecycle id => some id).insertionSort (· ≤ ·)

def find (s : GateStore) (gateId : String) : Option GateRecord :=
  match (s.current none).get? gateId with
  | some hit => some hit
  | none => s.lifecycleIds.findSome? fun l => (s.current (some l)).get? gateId

/-- Fold, verdict and append in one step. A gateless, refused or recovering claim writes nothing. -/
def claimApproval (s : GateStore) (lifecycleId : Option String) (kind : GateKind) (now : String) (policy : GatePolicy)
    (operationKey : Option String) : GateGuard × GateStore :=
  let gates := s.current lifecycleId
  let guard := evaluateGate gates kind policy operationKey
  if guard.permitted then
    match guard.gateId.bind gates.get? with
    | none => (guard, s)
    | some gate => if gate.state = .applied then (guard, s) else (guard, s.append (applyGate gate now operationKey))
  else (guard, s)

def delete (s : GateStore) (gateId : String) (lifecycleId : Option String) : Bool × GateStore :=
  let records := s.read lifecycleId
  let kept := records.filter fun record => record.id ≠ gateId
  if kept.length = records.length then (false, s) else (true, s.replace lifecycleId kept)

def compact (parse : String → Option Stamp) (s : GateStore) (lifecycleId : Option String) (now : Int) : Nat × GateStore :=
  let records := s.read lifecycleId
  let kept := compactGates parse records now
  if kept.length = records.length then (0, s) else (records.length - kept.length, s.replace lifecycleId kept)

end GateStore

def targetGate (s : GateStore) (gateId : String) (lifecycleId : Option String) : Except String GateRecord :=
  match (s.current lifecycleId).get? gateId with
  | some gate => .ok gate
  | none =>
    match if lifecycleId = none then s.find gateId else none with
    | some gate => .ok gate
    | none => .error s!"no gate {textRepr gateId} on lifecycle {textReprOpt lifecycleId}"

def recordGateDecision (s : GateStore) (policy : GatePolicy) (gateId : String) (lifecycleId : Option String)
    (verdict : GateVerdict) (evidenceRefs : List GateEvidenceRef) (now : String) : Except String GateRecord :=
  if (decisionStates.lookup verdict.decision).isNone then
    .error s!"unknown gate decision {textRepr verdict.decision}; expected one of ['approve', 'cancel', 'reject', 'request-revision']"
  else match targetGate s gateId lifecycleId with
    | .error e => .error e
    | .ok gate =>
      if verdict.via = .cli ∧ verdict.decision ≠ "cancel" ∧ (policy.ruleFor gate.kind).delegatedRole ≠ none then
        .error s!"{gate.kind.text} is delegated by the active gate policy; pass deciding_role for an attributed orchestration decision, or leave it to the developer"
      else match decideGate gate verdict now evidenceRefs with
        | none => .error verdict.decision
        | some updated =>
          if verdict.via = .orchestration then
            match delegatedDecisionFailureReason updated policy with
            | .error e => .error e
            | .ok (some failure) => .error s!"gate decision rejected by delegation policy: {failure}"
            | .ok none => .ok updated
          else .ok updated

def recordLifecycleGateDecision (s₀ s : GateStore) (policy : GatePolicy) (lifecycleId : String)
    (expectedGateId : Option String) (verdict : GateVerdict) (evidenceRefs : List GateEvidenceRef) (now : String) :
    Except String GateRecord :=
  match firstMaxOn GateRecord.ts ((s₀.current (some lifecycleId)).values.filter fun gate => gate.state = .open) with
  | none => .error s!"no open gate on lifecycle {textRepr lifecycleId}"
  | some gate =>
    match expectedGateId with
    | none => recordGateDecision s policy gate.id (some lifecycleId) verdict evidenceRefs now
    | some expected =>
      if gate.id ≠ expected then
        let state := (((s₀.current (some lifecycleId)).get? expected).map fun g => g.state.text).getD "missing"
        .error s!"gate {textRepr expected} is {state}; current open gate is {textRepr gate.id}"
      else recordGateDecision s policy gate.id (some lifecycleId) verdict evidenceRefs now

/-! ## Reading after writing -/

namespace GateStore

@[simp] theorem fold_empty (p : LogPath) (id : String) : (empty.fold p).get? id = none := rfl

theorem log_replace (s : GateStore) (l : Option String) (p : LogPath) (records : List GateRecord) :
    (s.replace l records).log p = if logPath l = p then records else s.log p := by
  simp only [log, replace, Dict.get?_set]
  split <;> rfl

theorem log_append (s : GateStore) (r : GateRecord) (p : LogPath) :
    (s.append r).log p = if logPath r.lifecycleId = p then s.log p ++ [r] else s.log p := by
  rw [append, log_replace]
  split
  · rename_i h
    rw [read, h]
  · rfl

theorem log_delete (s : GateStore) (id : String) (l : Option String) (p : LogPath) :
    (s.delete id l).2.log p = if logPath l = p then (s.log p).filter fun r => r.id ≠ id else s.log p := by
  unfold delete
  dsimp only
  split
  · rename_i h
    have hf := List.filter_sublist.eq_of_length h
    split
    · rename_i hl
      rw [← hl]
      exact hf.symm
    · rfl
  rw [log_replace]
  split
  · rename_i hl
    rw [read, hl]
  · rfl

theorem log_compact (parse : String → Option Stamp) (s : GateStore) (l : Option String) (now : Int) (p : LogPath) :
    (s.compact parse l now).2.log p = if logPath l = p then compactGates parse (s.log p) now else s.log p := by
  unfold compact
  dsimp only
  split
  · rename_i h
    have hf : compactGates parse (s.read l) now = s.read l := List.filter_sublist.eq_of_length h
    split
    · rename_i hl
      rw [← hl]
      exact hf.symm
    · rfl
  rw [log_replace]
  split
  · rename_i hl
    rw [read, hl]
  · rfl

theorem current_compact (parse : String → Option Stamp) (s : GateStore) (l : Option String) (now : Int) :
    (s.compact parse l now).2.current l = foldGates (compactGates parse (s.read l) now) := by
  rw [current, read, log_compact, if_pos rfl]
  rfl

theorem fold_append (s : GateStore) (r : GateRecord) (p : LogPath) (id : String) :
    ((s.append r).fold p).get? id =
      if logPath r.lifecycleId = p ∧ r.id = id then some r else (s.fold p).get? id := by
  rw [fold, log_append]
  by_cases hl : logPath r.lifecycleId = p
  · rw [if_pos hl, foldGates_concat]
    by_cases hi : r.id = id <;> simp [hl, hi, fold]
  · simp [hl, fold]

theorem fold_delete (s : GateStore) (id : String) (l : Option String) (p : LogPath) (id' : String) :
    ((s.delete id l).2.fold p).get? id' =
      if logPath l = p ∧ id' = id then none else (s.fold p).get? id' := by
  rw [fold, log_delete]
  by_cases hl : logPath l = p
  · have h := foldGates_filter (fun i => decide (i ≠ id)) (s.log p) id'
    rw [if_pos hl, h]
    by_cases hi : id' = id <;> simp [hl, hi, fold]
  · simp [hl, fold]

variable {parse : String → Option Stamp} {s : GateStore} {p : LogPath} {now : Int} {id : String} {g : GateRecord}
  {l key : Option String} {kind : GateKind} {policy : GatePolicy}

theorem fold_compact_of_keep (l : Option String) (h : (s.fold p).get? id = some g) (hk : keepGate parse g now = true) :
    ((s.compact parse l now).2.fold p).get? id = some g := by
  rw [fold, log_compact]
  split
  · exact foldGates_compact_of_keep h hk
  · exact h

theorem fold_of_compact (h : ((s.compact parse l now).2.fold p).get? id = some g) : (s.fold p).get? id = some g := by
  rw [fold, log_compact] at h
  split at h
  · exact (foldGates_of_compact h).1
  · exact h

theorem fold_of_delete {id' : String} (h : ((s.delete id l).2.fold p).get? id' = some g) :
    (s.fold p).get? id' = some g := by
  rw [fold_delete] at h
  split at h
  · cases h
  · exact h

theorem fold_mem (h : (s.fold p).get? id = some g) : g ∈ s.log p ∧ g.id = id := foldGates_mem h

/-! ## Claims -/

theorem claimApproval_cases (s : GateStore) (l : Option String) (kind : GateKind) (now : String) (policy : GatePolicy)
    (key : Option String) :
    (∃ g, governingGate (s.current l) kind = some g ∧ g.state = .approved ∧ approvalFailureReason g policy = none ∧
        s.claimApproval l kind now policy key = (guardOf g kind policy key, s.append (applyGate g now key))) ∨
      (s.claimApproval l kind now policy key = (evaluateGate (s.current l) kind policy key, s) ∧
        ∀ g, governingGate (s.current l) kind = some g → g.state = .approved → approvalFailureReason g policy ≠ none) := by
  cases hg : governingGate (s.current l) kind with
  | none =>
    refine Or.inr ⟨?_, fun g h => by cases h⟩
    have hn := evaluateGate_of_none hg policy key
    simp [claimApproval, hn.1, hn.2]
  | some g =>
    have hid : (s.current l).get? g.id = some g := (governingGate_fold hg).1
    have he := evaluateGate_of_governing hg policy key
    by_cases hp : (guardOf g kind policy key).permitted = true
    · by_cases ha : g.state = .applied
      · refine Or.inr ⟨?_, ?_⟩
        · simp [claimApproval, he, hp, hid, ha]
        intro g' h hs
        cases h
        rw [ha] at hs
        cases hs
      rcases guardOf_permitted.mp hp with ⟨hs, hf⟩ | ⟨hs, -⟩
      · exact Or.inl ⟨g, rfl, hs, hf, by simp [claimApproval, he, hp, hid, ha]⟩
      · exact absurd hs ha
    refine Or.inr ⟨?_, ?_⟩
    · simp [claimApproval, he, hp]
    intro g' h hs hf
    cases h
    exact hp (guardOf_permitted.mpr (Or.inl ⟨hs, hf⟩))

def grantOf (s : GateStore) (l : Option String) (kind : GateKind) (policy : GatePolicy) (key : Option String) :
    Option GateRecord :=
  (governingGate (s.current l) kind).filter fun g =>
    g.state = .approved && (evaluateGate (s.current l) kind policy key).permitted

theorem grantOf_eq_some :
    s.grantOf l kind policy key = some g ↔
      governingGate (s.current l) kind = some g ∧ g.state = .approved ∧ approvalFailureReason g policy = none := by
  simp only [grantOf, Option.filter_eq_some_iff, Bool.and_eq_true, decide_eq_true_eq]
  refine and_congr_right fun hg => and_congr_right fun hs => ?_
  rw [evaluateGate_of_governing hg, guardOf_permitted]
  simp [hs]

theorem claimApproval_guard (s : GateStore) (l : Option String) (kind : GateKind) (now : String) (policy : GatePolicy)
    (key : Option String) :
    (s.claimApproval l kind now policy key).1 = evaluateGate (s.current l) kind policy key := by
  rcases claimApproval_cases s l kind now policy key with ⟨g, hg, -, -, he⟩ | ⟨he, -⟩
  · rw [he, evaluateGate_of_governing hg]
  · rw [he]

theorem claimApproval_store (s : GateStore) (l : Option String) (kind : GateKind) (now : String) (policy : GatePolicy)
    (key : Option String) :
    (s.claimApproval l kind now policy key).2 =
      match s.grantOf l kind policy key with
      | some g => s.append (applyGate g now key)
      | none => s := by
  rcases claimApproval_cases s l kind now policy key with ⟨g, hg, hs, hf, he⟩ | ⟨he, hn⟩
  · rw [he, grantOf_eq_some.mpr ⟨hg, hs, hf⟩]
  have hnone : s.grantOf l kind policy key = none := by
    refine Option.eq_none_iff_forall_ne_some.mpr fun g hg => ?_
    obtain ⟨hg, hs, hf⟩ := grantOf_eq_some.mp hg
    exact hn g hg hs hf
  rw [he, hnone]

theorem grantOf_fold (h : s.grantOf l kind policy key = some g) :
    (s.fold (logPath l)).get? g.id = some g ∧ g.state = .approved :=
  ⟨(governingGate_fold (grantOf_eq_some.mp h).1).1, (grantOf_eq_some.mp h).2.1⟩

end GateStore

variable {s : GateStore}

theorem GateStore.find_fold (h : s.find id = some g) : ∃ p, (s.fold p).get? id = some g := by
  unfold GateStore.find at h
  split at h
  · rename_i hit hh
    cases h
    exact ⟨logPath none, hh⟩
  · obtain ⟨l, -, hl⟩ := List.exists_of_findSome?_eq_some h
    exact ⟨logPath (some l), hl⟩

theorem targetGate_fold (h : targetGate s id l = .ok g) : ∃ p, (s.fold p).get? id = some g := by
  unfold targetGate at h
  split at h
  · rename_i gate hg
    cases h
    exact ⟨logPath l, hg⟩
  split at h
  · rename_i gate hg
    cases h
    split at hg
    · exact GateStore.find_fold hg
    · cases hg
  · cases h

theorem recordGateDecision_ok {policy : GatePolicy} {v : GateVerdict} {refs : List GateEvidenceRef} {now : String}
    {u : GateRecord} (h : recordGateDecision s policy id l v refs now = .ok u) :
    ∃ g p, (s.fold p).get? id = some g ∧ decideGate g v now refs = some u ∧
      (v.via = .orchestration → delegatedDecisionFailureReason u policy = .ok none) := by
  unfold recordGateDecision at h
  split at h
  · cases h
  split at h
  · cases h
  rename_i g hg
  obtain ⟨p, hp⟩ := targetGate_fold hg
  split at h
  · cases h
  split at h
  · cases h
  rename_i updated hu
  refine ⟨g, p, hp, ?_⟩
  split at h
  · split at h
    · cases h
    · cases h
    rename_i hd
    cases h
    exact ⟨hu, fun _ => hd⟩
  rename_i hv
  cases h
  exact ⟨hu, fun he => absurd he hv⟩

/-! ## Compaction and enforcement

A compaction changes a verdict only by dropping the governing gate. An applied
gate of a consumed kind is never dropped; an open, rejected or returned gate is
dropped when it is older than the age limit, and its refusal goes with it.
-/

def refusingStates : List GateState := [.open, .rejected, .revisionRequested, .applied]

structure RefusedBy (gates : Dict String GateRecord) (kind : GateKind) (policy : GatePolicy) (key : Option String)
    (g : GateRecord) : Prop where
  governing : governingGate gates kind = some g
  state : g.state ∈ refusingStates
  refused : (evaluateGate gates kind policy key).permitted = false

theorem keepGate_refusing (hk : g.kind ∈ consumedApprovalGateKinds) (hs : g.state ∈ refusingStates)
    (ha : g.state = .applied ∨ NotAged parse g now) : keepGate parse g now = true := by
  by_cases happ : g.state = .applied
  · exact keepGate_applied happ hk
  refine keepGate_notAged happ ?_ (ha.resolve_left happ)
  revert hs
  cases g.state <;> decide

/-- A refusal by a gate that is applied or within the age limit survives every compaction, word for word. -/
theorem compact_keeps_refusal (parse : String → Option Stamp) (s : GateStore) (l : Option String) {kind : GateKind}
    (hk : kind ∈ consumedApprovalGateKinds) (policy : GatePolicy) (key : Option String) (now : Int)
    (g : GateRecord) (hr : RefusedBy (s.current l) kind policy key g) (ha : g.state = .applied ∨ NotAged parse g now) :
    (evaluateGate ((s.compact parse l now).2.current l) kind policy key).permitted = false ∧
      evaluateGate ((s.compact parse l now).2.current l) kind policy key = evaluateGate (s.current l) kind policy key := by
  have hgk : g.kind ∈ consumedApprovalGateKinds := (governingGate_fold hr.governing).2 ▸ hk
  have hkeep : keepGate parse g now = true := keepGate_refusing hgk hr.state ha
  have heq : evaluateGate ((s.compact parse l now).2.current l) kind policy key =
      evaluateGate (s.current l) kind policy key := by
    rw [GateStore.current_compact]
    exact evaluateGate_compact hr.governing hkeep policy key
  exact ⟨heq ▸ hr.refused, heq⟩

/-! ## Two closeout gates, two days later -/

def oldCloseoutGate : GateRecord :=
  createGate .closeoutApproval "gate-1" "2026-08-01T10:00:00+00:00" { lifecycleId := some "lc-1" } {}

def oldCloseoutStore : GateStore := GateStore.empty.append oldCloseoutGate

/-- 2026-08-03T10:00:00 UTC. -/
def twoDaysLater : Int := 1785751200000000

theorem openGate_aged_out :
    (evaluateGate (oldCloseoutStore.current (some "lc-1")) .closeoutApproval defaultGatePolicy none).permitted = false ∧
      (evaluateGate ((oldCloseoutStore.compact fromisoformat (some "lc-1") twoDaysLater).2.current (some "lc-1"))
        .closeoutApproval defaultGatePolicy none).permitted = true ∧
      ¬ ∀ (s : GateStore) (l : Option String) (kind : GateKind) (policy : GatePolicy) (key : Option String) (now : Int)
          (g : GateRecord), kind ∈ consumedApprovalGateKinds → RefusedBy (s.current l) kind policy key g →
          (evaluateGate ((s.compact fromisoformat l now).2.current l) kind policy key).permitted = false := by
  have hr : RefusedBy (oldCloseoutStore.current (some "lc-1")) .closeoutApproval defaultGatePolicy none oldCloseoutGate :=
    ⟨by decide, by decide, by decide⟩
  have hp : (evaluateGate ((oldCloseoutStore.compact fromisoformat (some "lc-1") twoDaysLater).2.current (some "lc-1"))
      .closeoutApproval defaultGatePolicy none).permitted = true := by decide
  refine ⟨by decide, hp, fun hall => ?_⟩
  rw [hall oldCloseoutStore (some "lc-1") .closeoutApproval defaultGatePolicy none twoDaysLater oldCloseoutGate
    (by decide) hr] at hp
  cases hp

def spentCloseoutStore : GateStore :=
  oldCloseoutStore.append (applyGate oldCloseoutGate "2026-08-01T11:00:00+00:00" (some "op-1"))

theorem spentCloseout_keeps_refusal :
    (evaluateGate ((spentCloseoutStore.compact fromisoformat (some "lc-1") twoDaysLater).2.current (some "lc-1"))
      .closeoutApproval defaultGatePolicy (some "op-2")).permitted = false :=
  (compact_keeps_refusal fromisoformat spentCloseoutStore (some "lc-1") (by decide) defaultGatePolicy (some "op-2")
    twoDaysLater (applyGate oldCloseoutGate "2026-08-01T11:00:00+00:00" (some "op-1"))
    ⟨by decide, by decide, by decide⟩ (Or.inl rfl)).1

end AgentsRemember.Gate
