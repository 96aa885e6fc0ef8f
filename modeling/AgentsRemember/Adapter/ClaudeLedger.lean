import AgentsRemember.Adapter.ClaudeSession

/-!
# The correlation ledger of a Claude session

What the maps of the stream, the write lock and the process say about each other.
A submission is at the lock, or its message is out; a message that is out and did
not break off awaits its replay, or is the turn, or was abandoned before its
replay, or ended. While the reader reads there is one such message that has not
ended, at most.
-/

namespace AgentsRemember.Adapter.Claude

open Lib
open Harness (ControlOperationRef)

structure View where
  records : List ClaudeSubmission
  history : Dict String Nat
  texts : Dict String String
  correlations : Dict String String
  accepted : List String
  writing : List Nat
  reading : Bool
  /-- The submission that holds the write lock. -/
  lock : Option Nat
  sent : List Nat
  broken : List Nat
  replayed : List Nat
  results : Nat
  completions : List Completion
  ownFailure : Bool

def promptLock : Option Writer → Option Nat
  | some (.prompt ref) => some ref
  | _ => none

def ClaudeSession.view (s : ClaudeSession) : View where
  records := s.records
  history := s.history
  texts := s.pendingByText
  correlations := s.pendingByCorrelation
  accepted := s.acceptedOrder
  writing := s.writing
  reading := s.reading
  lock := promptLock s.lock
  sent := s.sent
  broken := s.broken
  replayed := s.replayed
  results := s.results
  completions := s.completions
  ownFailure := s.ownFailure

namespace View

def Held (v : View) (ref : Nat) (r : ClaudeSubmission) : Prop :=
  v.records[ref]? = some r ∧ v.history.get? r.request.requestId = some ref

def TextPending (v : View) (r : ClaudeSubmission) : Prop := v.texts.get? r.wireText = some r.request.requestId

def CorrelationPending (v : View) (r : ClaudeSubmission) : Prop :=
  v.correlations.get? r.correlationId = some r.request.requestId

structure Fresh (r : ClaudeSubmission) : Prop where
  unknown : r.acceptance = .unknown
  uncompleted : r.completed = false
  unabandoned : r.abandoned = false

/-- The maps. A text key may be lost to another submission of the same text, but never one of a later submission that is
at the lock behind it. -/
structure Tables (v : View) : Prop where
  held : ∀ id ref, v.history.get? id = some ref → ∃ r, v.records[ref]? = some r ∧ r.request.requestId = id
  distinct : ∀ (ref ref' : Nat) (r r' : ClaudeSubmission), v.records[ref]? = some r → v.records[ref']? = some r' →
    r.correlationId = r'.correlationId → ref = ref'
  texts : ∀ text id, v.texts.get? text = some id → ∃ ref r, v.Held ref r ∧ r.request.requestId = id ∧
    r.wireText = text ∧ v.CorrelationPending r
  correlations : ∀ correlationId id, v.correlations.get? correlationId = some id → ∃ ref r, v.Held ref r ∧
    r.request.requestId = id ∧ r.correlationId = correlationId ∧ Fresh r
  waiting : ∀ ref ∈ v.writing, ∃ r, v.Held ref r ∧ r.acceptance = .unknown ∧ r.completed = false
  sorted : v.writing.Pairwise (· < ·)
  ahead : ∀ ref ∈ v.sent, ∀ ref' ∈ v.writing, ref < ref'
  later : ∀ ref r, v.Held ref r → v.TextPending r → ∀ ref' ∈ v.writing, ref < ref' →
    ∀ r' : ClaudeSubmission, v.records[ref']? = some r' → r'.wireText ≠ r.wireText
  latest : ∀ id ref, v.history.get? id = some ref → ∀ (i : Nat) (r : ClaudeSubmission), v.records[i]? = some r →
    r.request.requestId = id → i ≤ ref
  sent : ∀ ref ∈ v.sent, ref < v.records.length
  accepted : ∀ id ∈ v.accepted, ∃ ref r, v.Held ref r ∧ r.request.requestId = id ∧ ref ∈ v.sent ∧ ¬ v.CorrelationPending r

structure Wire (v : View) : Prop where
  replayed : ∀ ref ∈ v.replayed, ref ∈ v.sent
  pending : ∀ ref r, v.Held ref r → v.CorrelationPending r → ref ∉ v.replayed
  broken : ∀ ref ∈ v.broken, ref ∈ v.sent
  completed : ∀ ref (r : ClaudeSubmission), v.records[ref]? = some r → r.completed = true → ref ∈ v.replayed
  retained : ∀ ref ∈ v.replayed, ∀ r : ClaudeSubmission, v.records[ref]? = some r → r.abandoned = false →
    r.acceptance = .immediate
  operations : ∀ ref ∈ v.sent, ∀ ref' ∈ v.sent, ∀ r r' : ClaudeSubmission, v.records[ref]? = some r →
    v.records[ref']? = some r' → r.operation = r'.operation → ref = ref'
  completions : ∀ e ∈ v.completions, e.ref ∈ v.replayed ∧ ∃ r : ClaudeSubmission, v.records[e.ref]? = some r ∧
    e.operation = r.operation ∧ r.completed = true
  once : (v.completions.map Completion.operation).Nodup
  single : v.accepted.length ≤ 1
  survives : v.ownFailure = false
  lock : ∀ ref, v.lock = some ref → ref ∈ v.sent ∧ ref ∉ v.broken ∧ ∀ i ∈ v.sent, i ≤ ref

structure Out (v : View) (ref : Nat) (r : ClaudeSubmission) : Prop where
  sent : ref ∈ v.sent
  unbroken : ref ∈ v.broken → ref ∈ v.replayed ∨ r.abandoned = true
  record : v.records[ref]? = some r
  uncompleted : r.completed = false

structure Turn (v : View) : Prop where
  accepted : ∀ id ∈ v.accepted, ∃ ref r, v.Held ref r ∧ r.request.requestId = id ∧ ref ∈ v.replayed ∧ r.completed = false
  outstanding : ∀ ref r, v.Out ref r → v.Held ref r ∧ (v.CorrelationPending r ∨ r.request.requestId ∈ v.accepted ∨
    (r.abandoned = true ∧ r.acceptance = .unknown ∧ ref ∉ v.replayed))
  alone : ∀ ref r ref' r', v.Out ref r → v.Out ref' r' → ref = ref'
  texts : ∀ ref r, v.Out ref r → v.CorrelationPending r → v.TextPending r
  -- No message goes out before the drain of the last one has ended.
  holder : ∀ ref, v.lock = some ref → ∀ i r, v.Out i r → i = ref
  balance : v.replayed.length = v.results + v.accepted.length

structure Base (v : View) : Prop extends Tables v, Wire v

structure Ledger (P : Prop) (v : View) : Prop extends Tables v where
  wire : P → Wire v
  turn : P → v.reading = true → Turn v

theorem Ledger.base {P : Prop} {v : View} (h : Ledger P v) (hp : P) : Base v := ⟨h.toTables, h.wire hp⟩

/-! ## Records -/

structure SameSubmission (r r' : ClaudeSubmission) : Prop where
  request : r'.request = r.request
  correlationId : r'.correlationId = r.correlationId
  wireText : r'.wireText = r.wireText
  operation : r'.operation = r.operation

theorem SameSubmission.refl (r : ClaudeSubmission) : SameSubmission r r := ⟨rfl, rfl, rfl, rfl⟩

def modify (v : View) (ref : Nat) (f : ClaudeSubmission → ClaudeSubmission) : View :=
  { v with records := v.records.modify ref f }

def removePending (v : View) (r : ClaudeSubmission) : View :=
  { v with
    texts := v.texts.erase r.wireText
    correlations := v.correlations.erase r.correlationId }

def forget (v : View) (requestId : String) : View := { v with history := v.history.erase requestId }

section
variable {v : View} {ref : Nat} {f : ClaudeSubmission → ClaudeSubmission}

variable {i : Nat} {r' r : ClaudeSubmission}

theorem modify_some (h : (v.modify ref f).records[i]? = some r') :
    ∃ r, v.records[i]? = some r ∧ r' = if i = ref then f r else r := by
  simp only [modify, List.getElem?_modify] at h
  obtain ⟨r, hr, rfl⟩ := Option.map_eq_some_iff.mp h
  refine ⟨r, hr, ?_⟩
  by_cases hi : ref = i
  · rw [if_pos hi, if_pos hi.symm]
  · rw [if_neg hi, if_neg (Ne.symm hi)]

theorem some_modify (h : v.records[i]? = some r) :
    (v.modify ref f).records[i]? = some (if i = ref then f r else r) := by
  simp only [modify, List.getElem?_modify, h, Option.map_eq_map, Option.map_some]
  by_cases hi : ref = i
  · rw [if_pos hi, if_pos hi.symm]
  · rw [if_neg hi, if_neg (Ne.symm hi)]

theorem some_modify_self (h : v.records[ref]? = some r) : (v.modify ref f).records[ref]? = some (f r) := by
  rw [some_modify h, if_pos rfl]

variable (hf : ∀ r, SameSubmission r (f r))
include hf

theorem same_ite (i : Nat) (r : ClaudeSubmission) : SameSubmission r (if i = ref then f r else r) := by
  split
  · exact hf r
  · exact .refl r

theorem modify_same (h : (v.modify ref f).records[i]? = some r') :
    ∃ r, v.records[i]? = some r ∧ SameSubmission r r' ∧ (r' = if i = ref then f r else r) := by
  obtain ⟨r, hr, rfl⟩ := modify_some h
  exact ⟨r, hr, same_ite hf i r, rfl⟩

theorem Held.modify (h : v.Held i r) : (v.modify ref f).Held i (if i = ref then f r else r) := by
  refine ⟨some_modify h.1, ?_⟩
  rw [(same_ite hf i r).request]
  exact h.2

structure Quiet (v : View) (ref : Nat) (f : ClaudeSubmission → ClaudeSubmission) : Prop where
  fresh : ∀ r, v.records[ref]? = some r → v.CorrelationPending r → Fresh (f r)
  waiting : ∀ r, v.records[ref]? = some r → ref ∈ v.writing → (f r).acceptance = .unknown ∧ (f r).completed = false

structure Harmless (v : View) (ref : Nat) (f : ClaudeSubmission → ClaudeSubmission) : Prop where
  completed : ∀ r, v.records[ref]? = some r → (f r).completed = true → ref ∈ v.replayed
  stays : ∀ r, r.completed = true → (f r).completed = true
  retained : ∀ r, v.records[ref]? = some r → ref ∈ v.replayed → (f r).abandoned = false → (f r).acceptance = .immediate

omit hf in
theorem CorrelationPending.same (hs : SameSubmission r r') : v.CorrelationPending r' ↔ v.CorrelationPending r := by
  rw [CorrelationPending, CorrelationPending, hs.correlationId, hs.request]

omit hf in
theorem TextPending.same (hs : SameSubmission r r') : v.TextPending r' ↔ v.TextPending r := by
  rw [TextPending, TextPending, hs.wireText, hs.request]

theorem Held.modified (h : (v.modify ref f).Held i r') :
    ∃ r, v.Held i r ∧ SameSubmission r r' ∧ r' = if i = ref then f r else r := by
  obtain ⟨r, hr, hs, hif⟩ := modify_same hf h.1
  refine ⟨r, ⟨hr, ?_⟩, hs, hif⟩
  rw [← hs.request]
  exact h.2

theorem Tables.modify (h : Tables v) (hq : Quiet v ref f) : Tables (v.modify ref f) := by
  refine ⟨?_, ?_, ?_, ?_, ?_, h.sorted, h.ahead, ?_, ?_, ?_, ?_⟩
  · intro id i hi
    obtain ⟨r, hr, hid⟩ := h.held id i hi
    exact ⟨_, some_modify hr, (congrArg PromptRequest.requestId (same_ite hf i r).request).trans hid⟩
  · intro i j r r' hr hr' hc
    obtain ⟨r₀, hr₀, hs, -⟩ := modify_same hf hr
    obtain ⟨r₁, hr₁, hs', -⟩ := modify_same hf hr'
    rw [hs.correlationId, hs'.correlationId] at hc
    exact h.distinct i j r₀ r₁ hr₀ hr₁ hc
  · intro text id ht
    obtain ⟨i, r, hheld, hid, htext, hc⟩ := h.texts text id ht
    have hs : SameSubmission r (if i = ref then f r else r) := same_ite hf i r
    exact ⟨i, _, hheld.modify hf, (congrArg PromptRequest.requestId hs.request).trans hid, hs.wireText.trans htext,
      (CorrelationPending.same hs).mpr hc⟩
  · intro correlationId id hc
    obtain ⟨i, r, hheld, hid, hcorr, hfresh⟩ := h.correlations correlationId id hc
    have hs : SameSubmission r (if i = ref then f r else r) := same_ite hf i r
    refine ⟨i, _, hheld.modify hf, (congrArg PromptRequest.requestId hs.request).trans hid, hs.correlationId.trans hcorr, ?_⟩
    split
    · rename_i hir
      subst hir
      refine hq.fresh r hheld.1 ?_
      rw [CorrelationPending, hcorr, hid]
      exact hc
    · exact hfresh
  · intro i hi
    obtain ⟨r, hheld, hu, hcomp⟩ := h.waiting i hi
    refine ⟨_, hheld.modify hf, ?_⟩
    split
    · rename_i hir
      subst hir
      exact hq.waiting r hheld.1 hi
    · exact ⟨hu, hcomp⟩
  · intro i r' hheld htext j hj hij r'' hr''
    obtain ⟨r₀, hheld₀, hs, -⟩ := Held.modified hf hheld
    obtain ⟨r₁, hr₁, hs', -⟩ := modify_same hf hr''
    rw [hs'.wireText, hs.wireText]
    exact h.later i r₀ hheld₀ ((TextPending.same hs).mp htext) j hj hij r₁ hr₁
  · intro id i hi j r' hr' hid
    obtain ⟨r, hr, hs, -⟩ := modify_same hf hr'
    rw [hs.request] at hid
    exact h.latest id i hi j r hr hid
  · intro i hi
    simpa [View.modify] using h.sent i hi
  · intro id hid
    obtain ⟨i, r, hheld, hr, hsent, hc⟩ := h.accepted id hid
    have hs : SameSubmission r (if i = ref then f r else r) := same_ite hf i r
    exact ⟨i, _, hheld.modify hf, (congrArg PromptRequest.requestId hs.request).trans hr, hsent,
      fun hc' => hc ((CorrelationPending.same hs).mp hc')⟩

theorem Wire.modify (h : Wire v) (hm : Harmless v ref f) : Wire (v.modify ref f) := by
  refine ⟨h.replayed, ?_, h.broken, ?_, ?_, ?_, ?_, h.once, h.single, h.survives, h.lock⟩
  · intro i r' hheld hc
    obtain ⟨r, hheld₀, hs, -⟩ := Held.modified hf hheld
    exact h.pending i r hheld₀ ((CorrelationPending.same hs).mp hc)
  · intro i r' hr' hcomp
    obtain ⟨r, hr, rfl⟩ := modify_some hr'
    split at hcomp
    · rename_i hir
      subst hir
      exact hm.completed r hr hcomp
    · exact h.completed i r hr hcomp
  · intro i hi r' hr' hab
    obtain ⟨r, hr, rfl⟩ := modify_some hr'
    split at hab
    · rename_i hir
      subst hir
      rw [if_pos rfl]
      exact hm.retained r hr hi hab
    rename_i hir
    rw [if_neg hir]
    exact h.retained i hi r hr hab
  · intro i hi j hj r r' hr hr' hop
    obtain ⟨r₀, hr₀, hs, -⟩ := modify_same hf hr
    obtain ⟨r₁, hr₁, hs', -⟩ := modify_same hf hr'
    rw [hs.operation, hs'.operation] at hop
    exact h.operations i hi j hj r₀ r₁ hr₀ hr₁ hop
  intro e he
  obtain ⟨hrep, r, hr, hop, hcomp⟩ := h.completions e he
  refine ⟨hrep, _, some_modify hr, hop.trans (same_ite hf e.ref r).operation.symm, ?_⟩
  split
  · exact hm.stays r hcomp
  · exact hcomp

end

/-! ## The maps -/

variable {v : View} {ref : Nat} {r : ClaudeSubmission}

variable {r' : ClaudeSubmission} {id : String} {i : Nat}

theorem CorrelationPending.of_removed (h : (v.removePending r).CorrelationPending r') : v.CorrelationPending r' := by
  simp only [CorrelationPending, View.removePending, Dict.get?_erase] at h
  split at h
  · cases h
  · exact h

theorem Tables.removePending (h : Tables v) (hr : v.records[ref]? = some r) : Tables (v.removePending r) := by
  refine { h with texts := ?_, correlations := ?_, later := ?_, accepted := ?_ }
  · intro text id ht
    simp only [View.removePending, Dict.get?_erase] at ht
    split at ht
    · cases ht
    rename_i hne
    obtain ⟨i, r', hheld, hid, htext, hc⟩ := h.texts text id ht
    refine ⟨i, r', hheld, hid, htext, ?_⟩
    have hcorr : r'.correlationId ≠ r.correlationId := by
      intro hcorr
      cases h.distinct i ref r' r hheld.1 hr hcorr
      cases hheld.1.symm.trans hr
      exact hne htext.symm
    rw [CorrelationPending, View.removePending, Dict.get?_erase, if_neg hcorr]
    exact hc
  · intro correlationId id hc
    simp only [View.removePending, Dict.get?_erase] at hc
    split at hc
    · cases hc
    · exact h.correlations correlationId id hc
  · intro i r' hheld htext
    refine h.later i r' hheld ?_
    simp only [TextPending, View.removePending, Dict.get?_erase] at htext
    split at htext
    · cases htext
    · exact htext
  · intro id hid
    obtain ⟨i, r', hheld, hr', hsent, hc⟩ := h.accepted id hid
    exact ⟨i, r', hheld, hr', hsent, fun hc' => hc hc'.of_removed⟩

theorem Wire.removePending (h : Wire v) : Wire (v.removePending r) :=
  { h with pending := fun i r' hheld hc => h.pending i r' hheld hc.of_removed }

theorem Held.of_forgotten (h : (v.forget id).Held i r) : v.Held i r := by
  refine ⟨h.1, ?_⟩
  have hget := h.2
  simp only [View.forget, Dict.get?_erase] at hget
  split at hget
  · cases hget
  · exact hget

theorem Held.forget (h : v.Held i r) (hne : r.request.requestId ≠ id) : (v.forget id).Held i r := by
  refine ⟨h.1, ?_⟩
  rw [View.forget, Dict.get?_erase, if_neg hne]
  exact h.2

theorem Tables.forget (h : Tables v) (htexts : ∀ text, v.texts.get? text ≠ some id)
    (hcorrelations : ∀ correlationId, v.correlations.get? correlationId ≠ some id)
    (hwaiting : ∀ i ∈ v.writing, ∀ r : ClaudeSubmission, v.records[i]? = some r → r.request.requestId ≠ id)
    (haccepted : id ∉ v.accepted) : Tables (v.forget id) := by
  have hwas {i : Nat} {id' : String} (hi : (v.forget id).history.get? id' = some i) : v.history.get? id' = some i := by
    simp only [View.forget, Dict.get?_erase] at hi
    split at hi
    · cases hi
    · exact hi
  refine ⟨fun id' i hi => h.held id' i (hwas hi), h.distinct, ?_, ?_, ?_, h.sorted, h.ahead, ?_,
    fun id' i hi => h.latest id' i (hwas hi), h.sent, ?_⟩
  · intro text id' ht
    obtain ⟨i, r, hr, rfl, htext, hc⟩ := h.texts text id' ht
    exact ⟨i, r, hr.forget fun hid => htexts text (hid ▸ ht), rfl, htext, hc⟩
  · intro correlationId id' hc
    obtain ⟨i, r, hr, rfl, hcorr, hfresh⟩ := h.correlations correlationId id' hc
    exact ⟨i, r, hr.forget fun hid => hcorrelations correlationId (hid ▸ hc), rfl, hcorr, hfresh⟩
  · intro i hi
    obtain ⟨r, hr, hu, hcomp⟩ := h.waiting i hi
    exact ⟨r, hr.forget (hwaiting i hi r hr.1), hu, hcomp⟩
  · exact fun i r hr htext => h.later i r hr.of_forgotten htext
  intro id' hid'
  obtain ⟨i, r, hr, rfl, hrest⟩ := h.accepted id' hid'
  exact ⟨i, r, hr.forget fun hid => haccepted (hid ▸ hid'), rfl, hrest⟩

theorem Wire.forget (h : Wire v) (id : String) : Wire (v.forget id) :=
  { h with pending := fun i r hheld => h.pending i r hheld.of_forgotten }

def reserve (v : View) (r : ClaudeSubmission) : View :=
  { v with
    records := v.records ++ [r]
    history := v.history.set r.request.requestId v.records.length
    texts := v.texts.set r.wireText r.request.requestId
    correlations := v.correlations.set r.correlationId r.request.requestId }

structure New (v : View) (r : ClaudeSubmission) : Prop where
  fresh : Fresh r
  request : v.history.get? r.request.requestId = none
  text : v.texts.get? r.wireText = none
  correlation : ∀ (i : Nat) (r' : ClaudeSubmission), v.records[i]? = some r' → r'.correlationId ≠ r.correlationId

theorem lt_of_record (h : v.records[i]? = some r') : i < v.records.length :=
  (List.getElem?_eq_some_iff.mp h).1

theorem reserve_old (h : v.records[i]? = some r') : (v.reserve r).records[i]? = some r' := by
  rw [reserve, List.getElem?_append_left (lt_of_record h)]
  exact h

theorem reserve_cases (h : (v.reserve r).records[i]? = some r') :
    v.records[i]? = some r' ∨ (i = v.records.length ∧ r' = r) := by
  simp only [reserve, List.getElem?_append] at h
  split at h
  · exact .inl h
  obtain ⟨hi, rfl⟩ := List.getElem?_eq_some_iff.mp h
  simp only [List.length_singleton] at hi
  exact .inr ⟨by omega, by simp⟩

theorem Held.reserve (h : v.Held i r') (hnew : v.New r) : (v.reserve r).Held i r' := by
  refine ⟨reserve_old h.1, ?_⟩
  rw [View.reserve, Dict.get?_set_ne]
  · exact h.2
  intro hid
  have := h.2
  rw [← hid, hnew.request] at this
  cases this

theorem held_reserve : (v.reserve r).Held v.records.length r :=
  ⟨by simp [reserve], by simp [reserve]⟩

theorem Held.of_reserved (h : (v.reserve r).Held i r') (hi : i ≠ v.records.length) : v.Held i r' := by
  rcases reserve_cases h.1 with hr | ⟨hn, -⟩
  · refine ⟨hr, ?_⟩
    have hget := h.2
    simp only [View.reserve, Dict.get?_set] at hget
    split at hget
    · exact absurd (Option.some.inj hget).symm hi
    · exact hget
  · exact absurd hn hi

theorem correlationPending_reserve (hnew : v.New r) (hr' : v.records[i]? = some r') :
    (v.reserve r).CorrelationPending r' ↔ v.CorrelationPending r' := by
  rw [CorrelationPending, CorrelationPending, View.reserve, Dict.get?_set_ne _ _ (Ne.symm (hnew.correlation i r' hr'))]

theorem TextPending.reserve (h : v.TextPending r') (hnew : v.New r) : (v.reserve r).TextPending r' := by
  rw [TextPending, View.reserve, Dict.get?_set_ne]
  · exact h
  intro htext
  rw [TextPending, ← htext, hnew.text] at h
  cases h

theorem Tables.reserve (h : Tables v) (hnew : v.New r) : Tables (v.reserve r) := by
  refine ⟨?_, ?_, ?_, ?_, ?_, h.sorted, h.ahead, ?_, ?_, ?_, ?_⟩
  · intro id i hi
    simp only [View.reserve, Dict.get?_set] at hi
    split at hi
    · rename_i hid
      cases hi
      exact ⟨r, held_reserve.1, hid⟩
    · obtain ⟨r', hr', hid⟩ := h.held id i hi
      exact ⟨r', reserve_old hr', hid⟩
  · intro i j r₁ r₂ hi hj hc
    rcases reserve_cases hi with hi' | ⟨hn, heq⟩
    · rcases reserve_cases hj with hj' | ⟨-, heq⟩
      · exact h.distinct i j r₁ r₂ hi' hj' hc
      · exact absurd (heq ▸ hc) (hnew.correlation i r₁ hi')
    rcases reserve_cases hj with hj' | ⟨hn', -⟩
    · exact absurd (heq ▸ hc).symm (hnew.correlation j r₂ hj')
    · exact hn.trans hn'.symm
  · intro text id ht
    simp only [View.reserve, Dict.get?_set] at ht
    split at ht
    · rename_i htext
      cases ht
      exact ⟨_, r, held_reserve, rfl, htext, by simp [CorrelationPending, View.reserve]⟩
    · obtain ⟨i, r', hr', hid, htext, hc⟩ := h.texts text id ht
      exact ⟨i, r', hr'.reserve hnew, hid, htext, (correlationPending_reserve hnew hr'.1).mpr hc⟩
  · intro correlationId id hc
    simp only [View.reserve, Dict.get?_set] at hc
    split at hc
    · rename_i hcorr
      cases hc
      exact ⟨_, r, held_reserve, rfl, hcorr, hnew.fresh⟩
    · obtain ⟨i, r', hr', hid, hcorr, hfresh⟩ := h.correlations correlationId id hc
      exact ⟨i, r', hr'.reserve hnew, hid, hcorr, hfresh⟩
  · intro i hi
    obtain ⟨r', hr', hflags⟩ := h.waiting i hi
    exact ⟨r', hr'.reserve hnew, hflags⟩
  · intro i r₁ hr₁ htext j hj hij r₂ hr₂
    obtain ⟨r₃, hr₃, -⟩ := h.waiting j hj
    have hjlt := lt_of_record hr₃.1
    have hheld : v.Held i r₁ := hr₁.of_reserved (by omega)
    have hr₂' : v.records[j]? = some r₂ := (reserve_cases hr₂).resolve_right fun hn => by omega
    refine h.later i r₁ hheld ?_ j hj hij r₂ hr₂'
    rw [TextPending, View.reserve, Dict.get?_set] at htext
    split at htext
    · have hid := hheld.2
      rw [← Option.some.inj htext, hnew.request] at hid
      cases hid
    · exact htext
  · intro id i hi j r' hr' hid
    simp only [View.reserve, Dict.get?_set] at hi
    split at hi
    · cases hi
      rcases reserve_cases hr' with hr' | ⟨rfl, -⟩
      · exact Nat.le_of_lt (lt_of_record hr')
      · exact le_rfl
    rename_i hne
    rcases reserve_cases hr' with hr' | ⟨-, rfl⟩
    · exact h.latest id i hi j r' hr' hid
    · exact absurd hid hne
  · intro i hi
    have := h.sent i hi
    simp only [View.reserve, List.length_append, List.length_singleton]
    omega
  · intro id hid
    obtain ⟨i, r', hheld, hr', hsent, hc⟩ := h.accepted id hid
    exact ⟨i, r', hheld.reserve hnew, hr', hsent, fun hc' => hc ((correlationPending_reserve hnew hheld.1).mp hc')⟩

theorem Wire.reserve (h : Wire v) (ht : Tables v) (hnew : v.New r) : Wire (v.reserve r) := by
  have hlast : v.records.length ∉ v.sent := fun hi => lt_irrefl _ (ht.sent _ hi)
  refine ⟨h.replayed, ?_, h.broken, ?_, ?_, ?_, ?_, h.once, h.single, h.survives, h.lock⟩
  · intro i r' hheld hc hrep
    have hi : i ≠ v.records.length := fun hi => hlast (hi ▸ h.replayed i hrep)
    have hheld' := hheld.of_reserved hi
    exact h.pending i r' hheld' ((correlationPending_reserve hnew hheld'.1).mp hc) hrep
  · intro i r' hr' hcomp
    rcases reserve_cases hr' with hr' | ⟨rfl, rfl⟩
    · exact h.completed i r' hr' hcomp
    · rw [hnew.fresh.uncompleted] at hcomp
      cases hcomp
  · intro i hi r' hr' hab
    rcases reserve_cases hr' with hr' | ⟨rfl, rfl⟩
    · exact h.retained i hi r' hr' hab
    · exact absurd (h.replayed _ hi) hlast
  · intro i hi j hj r₁ r₂ hr₁ hr₂ hop
    rcases reserve_cases hr₁ with hr₁ | ⟨rfl, -⟩
    · rcases reserve_cases hr₂ with hr₂ | ⟨rfl, -⟩
      · exact h.operations i hi j hj r₁ r₂ hr₁ hr₂ hop
      · exact absurd hj hlast
    · exact absurd hi hlast
  intro e he
  obtain ⟨hrep, r', hr', hrest⟩ := h.completions e he
  exact ⟨hrep, r', reserve_old hr', hrest⟩

def enqueue (v : View) (ref : Nat) : View := { v with writing := v.writing ++ [ref] }

theorem Tables.enqueue (h : Tables v) (hheld : v.Held ref r) (hfresh : Fresh r) (hsent : ∀ i ∈ v.sent, i < ref)
    (hwriting : ∀ i ∈ v.writing, i < ref)
    (hlater : ∀ i r', v.Held i r' → v.TextPending r' → i < ref → r.wireText ≠ r'.wireText) : Tables (v.enqueue ref) := by
  refine { h with waiting := ?_, sorted := ?_, ahead := ?_, later := ?_ }
  · intro i hi
    rcases List.mem_append.mp hi with hi | hi
    · exact h.waiting i hi
    · cases List.mem_singleton.mp hi
      exact ⟨r, hheld, hfresh.unknown, hfresh.uncompleted⟩
  · refine List.pairwise_append.mpr ⟨h.sorted, List.pairwise_singleton _ _, fun i hi j hj => ?_⟩
    cases List.mem_singleton.mp hj
    exact hwriting i hi
  · intro i hi j hj
    rcases List.mem_append.mp hj with hj | hj
    · exact h.ahead i hi j hj
    · cases List.mem_singleton.mp hj
      exact hsent i hi
  intro i r' hr' htext j hj hij r'' hr''
  rcases List.mem_append.mp hj with hj | hj
  · exact h.later i r' hr' htext j hj hij r'' hr''
  cases List.mem_singleton.mp hj
  cases hheld.1.symm.trans hr''
  exact hlater i r' hr' htext hij

def dequeue (v : View) : View := { v with writing := v.writing.tail }

theorem Tables.dequeue (h : Tables v) : Tables v.dequeue := by
  have hsub {i : Nat} (hi : i ∈ v.dequeue.writing) : i ∈ v.writing := List.mem_of_mem_tail hi
  exact { h with waiting := fun i hi => h.waiting i (hsub hi), sorted := h.sorted.sublist (List.tail_sublist _), ahead :=
      fun i hi j hj => h.ahead i hi j (hsub hj), later := fun i r' hr' ht j hj => h.later i r' hr' ht j (hsub hj) }

theorem Wire.queue (h : Wire v) (l : List Nat) : Wire { v with writing := l } := { h with }

def send (v : View) (ref : Nat) : View :=
  { v with
    lock := some ref
    sent := v.sent ++ [ref] }

theorem Tables.send (h : Tables v) (hr : v.records[ref]? = some r) (hahead : ∀ i ∈ v.writing, ref < i) :
    Tables (v.send ref) := by
  refine { h with ahead := ?_, sent := ?_, accepted := ?_ }
  · intro i hi j hj
    rcases List.mem_append.mp hi with hi | hi
    · exact h.ahead i hi j hj
    · cases List.mem_singleton.mp hi
      exact hahead j hj
  · intro i hi
    rcases List.mem_append.mp hi with hi | hi
    · exact h.sent i hi
    · cases List.mem_singleton.mp hi
      exact lt_of_record hr
  intro id hid
  obtain ⟨i, r', hheld, hr', hsent, hc⟩ := h.accepted id hid
  exact ⟨i, r', hheld, hr', List.mem_append_left _ hsent, hc⟩

theorem Wire.send (h : Wire v) (hr : v.records[ref]? = some r) (hlast : ∀ i ∈ v.sent, i < ref)
    (hop : ∀ i ∈ v.sent, ∀ r' : ClaudeSubmission, v.records[i]? = some r' → r'.operation ≠ r.operation) : Wire (v.send ref) := by
  refine { h with replayed := fun i hi => List.mem_append_left _ (h.replayed i hi), broken := fun i hi =>
      List.mem_append_left _ (h.broken i hi), operations := ?_, lock := ?_ }
  · intro i hi j hj r₁ r₂ hr₁ hr₂ heq
    rcases List.mem_append.mp hi with hi | hi <;> rcases List.mem_append.mp hj with hj | hj
    · exact h.operations i hi j hj r₁ r₂ hr₁ hr₂ heq
    · cases List.mem_singleton.mp hj
      cases hr.symm.trans hr₂
      exact absurd heq (hop i hi r₁ hr₁)
    · cases List.mem_singleton.mp hi
      cases hr.symm.trans hr₁
      exact absurd heq.symm (hop j hj r₂ hr₂)
    · rw [List.mem_singleton.mp hi, List.mem_singleton.mp hj]
  rintro i ⟨⟩
  refine ⟨List.mem_append_right _ (List.mem_singleton_self _), fun hb => lt_irrefl _ (hlast _ (h.broken _ hb)), fun i hi => ?_⟩
  rcases List.mem_append.mp hi with hi | hi
  · exact Nat.le_of_lt (hlast i hi)
  · exact Nat.le_of_eq (List.mem_singleton.mp hi)

end View

end AgentsRemember.Adapter.Claude
