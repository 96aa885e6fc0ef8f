import AgentsRemember.Lib.Trace
import AgentsRemember.Cockpit.World

/-!
# The withdrawal slot

What became of the text of a withdrawn message, as a log, and what the one
withdrawal slot says meanwhile. A text is brought back only after a withdrawn
answer and only until it is settled: put into the draft, or dismissed.
-/

namespace AgentsRemember.Cockpit

open Lib

namespace CockpitEvent

def Restores (id : RequestId) : CockpitEvent → Prop
  | .replaced i _ _ | .restored i _ => i = id
  | _ => False

def Settles (id : RequestId) : CockpitEvent → Prop
  | .replaced i _ _ | .restored i _ | .dismissed i => i = id
  | _ => False

def Brings (id : RequestId) (text : String) : CockpitEvent → Prop
  | .replaced i t _ | .held i t | .restored i t => i = id ∧ t = text
  | _ => False

theorem Restores.settles {id : RequestId} {e : CockpitEvent} (h : Restores id e) : Settles id e := by
  cases e with
  | replaced i t r => exact h
  | restored i t => exact h
  | requested i r => exact h
  | withdrawn i b => exact h
  | held i t => exact h
  | dismissed i => exact h.elim

end CockpitEvent

open CockpitEvent

def Unsettled (log : List CockpitEvent) (id : RequestId) : Prop := ∀ e ∈ log, ¬ Settles id e

def InRecovery (slot : Option WithdrawalState) (id : RequestId) : Prop := ∃ text now, slot = some (.recovery id text now)

structure Logged (log : List CockpitEvent) : Prop where
  settled : ∀ id text, NeverAfter (Settles id) (Brings id text) log
  founded : ∀ id text a e b, log = a ++ e :: b → Brings id text e → .withdrawn id true ∈ a
  revisions : ∀ id text revision, .replaced id text revision ∈ log → .requested id revision ∈ log
  answered : ∀ id, ¬ Unsettled log id → .withdrawn id true ∈ log

structure Slotted (log : List CockpitEvent) (slot : Option WithdrawalState) : Prop where
  accounted : ∀ id, .withdrawn id true ∈ log → ¬ Unsettled log id ∨ InRecovery slot id
  pending : ∀ p, slot = some (.pending p) → .requested p.requestId p.draftRevision ∈ log ∧ Unsettled log p.requestId
  recovery : ∀ id, InRecovery slot id → .withdrawn id true ∈ log ∧ Unsettled log id

section
variable {log : List CockpitEvent} {slot : Option WithdrawalState} {id : RequestId} {text : String} {e : CockpitEvent}

theorem Logged.concat (h : Logged log)
    (hbrings : ∀ id text, Brings id text e → .withdrawn id true ∈ log ∧ Unsettled log id)
    (hsettles : ∀ id, Settles id e → .withdrawn id true ∈ log)
    (hrevision : ∀ id text revision, e = .replaced id text revision → .requested id revision ∈ log) : Logged (log ++ [e]) := by
  refine ⟨fun id text => (h.settled id text).concat fun he => (hbrings id text he).2, ?_, ?_, ?_⟩
  · intro id text a x b hl hx
    rcases concat_eq_append_cons hl with ⟨-, rfl, rfl⟩ | ⟨b', -, hl⟩
    · exact (hbrings id text hx).1
    · exact h.founded id text a x b' hl hx
  · intro id text revision hmem
    rcases List.mem_append.mp hmem with hmem | hmem
    · exact List.mem_append_left _ (h.revisions id text revision hmem)
    · exact List.mem_append_left _ (hrevision id text revision (List.mem_singleton.mp hmem).symm)
  intro id hnot
  simp only [Unsettled, not_forall, not_not] at hnot
  obtain ⟨x, hx, hs⟩ := hnot
  rcases List.mem_append.mp hx with hx | hx
  · exact List.mem_append_left _ (h.answered id fun hu => hu x hx hs)
  · exact List.mem_append_left _ (hsettles id (List.mem_singleton.mp hx ▸ hs))

theorem Logged.plain (h : Logged log) (he : ∀ id text, ¬ Brings id text e) (hs : ∀ id, ¬ Settles id e) :
    Logged (log ++ [e]) := by
  refine h.concat (fun id text hb => absurd hb (he id text)) (fun id h => absurd h (hs id)) fun id text revision heq => ?_
  exact absurd (show Settles id e from heq ▸ rfl) (hs id)

theorem Unsettled.concat (h : Unsettled log id) (he : ¬ Settles id e) : Unsettled (log ++ [e]) id := by
  intro x hx
  rcases List.mem_append.mp hx with hx | hx
  · exact h x hx
  · exact List.mem_singleton.mp hx ▸ he

theorem not_unsettled_append {l : List CockpitEvent} (h : ¬ Unsettled log id) : ¬ Unsettled (log ++ l) id :=
  fun hu => h fun e he => hu e (List.mem_append_left _ he)

theorem not_unsettled_concat (he : Settles id e) : ¬ Unsettled (log ++ [e]) id :=
  fun hu => hu e (List.mem_append_right _ (List.mem_singleton_self _)) he

theorem not_inRecovery_none : ¬ InRecovery none id := fun ⟨_, _, h⟩ => nomatch h

variable {p : PendingWithdrawal} {now : Nat}

theorem not_inRecovery_pending : ¬ InRecovery (some (.pending p)) id := fun ⟨_, _, h⟩ => nomatch h

theorem inRecovery_some {i : RequestId} {t : String} : InRecovery (some (.recovery i t now)) id ↔ i = id := by
  constructor
  · rintro ⟨_, _, h⟩
    cases h
    rfl
  · rintro rfl
    exact ⟨t, now, rfl⟩

theorem Slotted.concat {slot' : Option WithdrawalState} (h : Slotted log slot)
    (hwithdrawn : ∀ id, e = .withdrawn id true → ¬ Unsettled log id ∨ InRecovery slot' id)
    (hkept : ∀ id, InRecovery slot id → Settles id e ∨ InRecovery slot' id)
    (hpending : ∀ p, slot' = some (.pending p) →
      .requested p.requestId p.draftRevision ∈ log ++ [e] ∧ Unsettled (log ++ [e]) p.requestId)
    (hrecovery : ∀ id, InRecovery slot' id → .withdrawn id true ∈ log ++ [e] ∧ Unsettled (log ++ [e]) id) :
    Slotted (log ++ [e]) slot' := by
  refine ⟨fun id hmem => ?_, hpending, hrecovery⟩
  rcases List.mem_append.mp hmem with hmem | hmem
  · rcases h.accounted id hmem with hs | hr
    · exact .inl (not_unsettled_append hs)
    · exact (hkept id hr).imp not_unsettled_concat fun h => h
  · exact (hwithdrawn id (List.mem_singleton.mp hmem).symm).imp not_unsettled_append fun h => h

/-! ## What happens to the slot -/

structure Placed (log : List CockpitEvent) (slot : Option WithdrawalState) : Prop where
  logged : Logged log
  slotted : Slotted log slot

theorem placed_nil : Placed [] none := by
  refine ⟨⟨fun _ _ => neverAfter_nil, fun _ _ a e b h => ?_, fun _ _ _ h => absurd h List.not_mem_nil, fun _ h => absurd nofun h⟩,
    ⟨fun _ h => absurd h List.not_mem_nil, fun _ h => ?_, fun _ h => absurd h not_inRecovery_none⟩⟩
  · cases a <;> cases h
  · cases h

theorem Placed.request (h : Placed log none) (hunsettled : Unsettled log p.requestId) :
    Placed (log ++ [.requested p.requestId p.draftRevision]) (some (.pending p)) := by
  refine ⟨h.logged.plain (fun _ _ h => h) fun _ h => h, h.slotted.concat nofun (fun _ h => absurd h not_inRecovery_none) ?_
    fun _ h => absurd h not_inRecovery_pending⟩
  intro p' hp
  cases hp
  exact ⟨List.mem_append_right _ (List.mem_singleton_self _), hunsettled.concat fun h => h⟩

theorem Placed.clear (h : Placed log slot) (hslot : ∀ id, ¬ InRecovery slot id) : Placed log none := by
  refine ⟨h.logged, fun id hmem => .inl ?_, nofun, fun _ h => absurd h not_inRecovery_none⟩
  exact (h.slotted.accounted id hmem).resolve_right (hslot id)

theorem Placed.unmatched (h : Placed log slot) : Placed (log ++ [.withdrawn id false]) slot := by
  refine ⟨h.logged.plain (fun _ _ h => h) fun _ h => h, h.slotted.concat nofun (fun _ h => .inr h) (fun p hp => ?_) fun id hr => ?_⟩
  · obtain ⟨hmem, hu⟩ := h.slotted.pending p hp
    exact ⟨List.mem_append_left _ hmem, hu.concat fun h => h⟩
  · obtain ⟨hmem, hu⟩ := h.slotted.recovery id hr
    exact ⟨List.mem_append_left _ hmem, hu.concat fun h => h⟩

theorem Placed.again (h : Placed log slot) (hslot : ∀ id, ¬ InRecovery slot id) (hs : ¬ Unsettled log id) :
    Placed (log ++ [.withdrawn id true]) none := by
  refine ⟨h.logged.plain (fun _ _ h => h) fun _ h => h, h.slotted.concat ?_ (fun id hr => absurd hr (hslot id)) nofun
    fun _ h => absurd h not_inRecovery_none⟩
  intro id' heq
  cases heq
  exact .inl hs

theorem Placed.replace {revision : Nat} (h : Placed log slot) (text : String) (hslot : ∀ id, ¬ InRecovery slot id)
    (hu : Unsettled log id) (hrequested : .requested id revision ∈ log) :
    Placed (log ++ [.withdrawn id true] ++ [.replaced id text revision]) none := by
  have hu' : Unsettled (log ++ [.withdrawn id true]) id := hu.concat fun h => h
  refine ⟨(h.logged.plain (e := .withdrawn id true) (fun _ _ h => h) fun _ h => h).concat (fun i t hb => ?_) (fun i hs => ?_) (fun i t r heq => ?_), fun i hmem => .inl ?_, nofun,
    fun _ h => absurd h not_inRecovery_none⟩
  · obtain ⟨rfl, -⟩ := hb
    exact ⟨List.mem_append_right _ (List.mem_singleton_self _), hu'⟩
  · cases show id = i from hs
    exact List.mem_append_right _ (List.mem_singleton_self _)
  · cases heq
    exact List.mem_append_left _ hrequested
  by_cases hid : i = id
  · exact hid ▸ not_unsettled_concat rfl
  · simp only [List.mem_append, List.mem_singleton, reduceCtorEq, or_false, withdrawn.injEq, hid, false_and] at hmem
    exact not_unsettled_append (not_unsettled_append ((h.slotted.accounted i hmem).resolve_right (hslot i)))

theorem Placed.hold (h : Placed log slot) (text : String) (now : Nat) (hslot : ∀ id, ¬ InRecovery slot id) (hu : Unsettled log id) :
    Placed (log ++ [.withdrawn id true] ++ [.held id text]) (some (.recovery id text now)) := by
  have hu' : Unsettled (log ++ [.withdrawn id true]) id := hu.concat fun h => h
  refine ⟨(h.logged.plain (e := .withdrawn id true) (fun _ _ h => h) fun _ h => h).concat (fun i t hb => ?_) nofun nofun, fun i hmem => ?_, nofun, fun i hr => ?_⟩
  · obtain ⟨rfl, -⟩ := hb
    exact ⟨List.mem_append_right _ (List.mem_singleton_self _), hu'⟩
  · by_cases hid : id = i
    · exact .inr (inRecovery_some.mpr hid)
    · simp only [List.mem_append, List.mem_singleton, reduceCtorEq, or_false, withdrawn.injEq, Ne.symm hid, false_and] at hmem
      exact .inl (not_unsettled_append (not_unsettled_append ((h.slotted.accounted i hmem).resolve_right (hslot i))))
  · cases inRecovery_some.mp hr
    exact ⟨List.mem_append_left _ (List.mem_append_right _ (List.mem_singleton_self _)), hu'.concat fun h => h⟩

theorem Placed.choose (h : Placed log (some (.recovery id text now))) (he : ∀ i, Settles i e ↔ i = id)
    (hbrings : ∀ i t, Brings i t e → i = id) (hrevision : ∀ i t r, e ≠ .replaced i t r)
    (hwithdrawn : ∀ i, e ≠ .withdrawn i true) : Placed (log ++ [e]) none := by
  have hr := h.slotted.recovery id ⟨text, now, rfl⟩
  refine ⟨h.logged.concat (fun i t hb => ?_) (fun i hs => (he i).mp hs ▸ hr.1) (fun i t r heq => absurd heq (hrevision i t r)),
    h.slotted.concat (fun i heq => absurd heq (hwithdrawn i)) (fun i hi => .inl ?_) nofun fun _ h => absurd h not_inRecovery_none⟩
  · rw [hbrings i t hb]
    exact hr
  · exact (he i).mpr (inRecovery_some.mp hi).symm

end

/-! ## The texts of the messages

Every text in the queue, in the slot and in the log is the one that its message
was submitted with, and a record that says that its text was restored is right.
-/

open Lib CockpitEvent

def Said (stored : List SubmitRecord) (id : RequestId) (text : String) : Prop :=
  ∃ r ∈ stored, r.requestId = id ∧ r.text = text

theorem Said.mono {stored stored' : List SubmitRecord} {id : RequestId} {text : String} (h : Said stored id text)
    (hs : ∀ r ∈ stored, r ∈ stored') : Said stored' id text := by
  obtain ⟨r, hr, hid⟩ := h
  exact ⟨r, hs r hr, hid⟩

namespace PerSessionCockpit

/-- The record may be stored as one of its message. -/
structure Faithful (s : PerSessionCockpit) (n : SubmitRecord) : Prop where
  said : Said s.stored n.requestId n.text
  marked : n.restoredAt.isSome = true → ∃ e ∈ s.log, Restores n.requestId e

structure Texts (s : PerSessionCockpit) : Prop where
  one : ∀ r ∈ s.stored, ∀ r' ∈ s.stored, r.requestId = r'.requestId → r.text = r'.text
  issued : ∀ r ∈ s.stored, r.requestId < s.issued
  marked : ∀ r ∈ s.stored, r.restoredAt.isSome = true → ∃ e ∈ s.log, Restores r.requestId e
  history : ∀ id r, s.submissionRecord id = some r → r ∈ s.stored ∧ r.requestId = id
  queue : ∀ q ∈ s.queue, Said s.stored q.requestId q.text ∧ .withdrawn q.requestId true ∉ s.log
  pending : ∀ p, s.withdrawal = some (.pending p) → Said s.stored p.requestId p.text
  recovery : ∀ id text now, s.withdrawal = some (.recovery id text now) → Said s.stored id text
  brought : ∀ id text, ∀ e ∈ s.log, Brings id text e → Said s.stored id text

variable {s s' : PerSessionCockpit} {n r : SubmitRecord} {id : RequestId} {text : String} {now : Nat}

/-! ## The primitives -/

structure SameTexts (s s' : PerSessionCockpit) : Prop where
  stored : s'.stored = s.stored
  issued : s'.issued = s.issued
  log : s'.log = s.log
  history : s'.submitHistory = s.submitHistory
  withdrawal : s'.withdrawal = s.withdrawal
  flight : s'.withdrawalInFlight = s.withdrawalInFlight
  queue : ∀ q ∈ s'.queue, q ∈ s.queue

theorem Texts.same (h : Texts s) (hs : SameTexts s s') : Texts s' := by
  obtain ⟨hone, hissued, hmarked, hhistory, hqueue, hpending, hrecovery, hbrought⟩ := h
  refine ⟨?_, ?_, ?_, fun id r hr => ?_, fun q hq => ?_, ?_, ?_, ?_⟩
  · rwa [hs.stored]
  · rwa [hs.stored, hs.issued]
  · rwa [hs.stored, hs.log]
  · rw [submissionRecord, hs.history] at hr
    rw [hs.stored]
    exact hhistory id r hr
  · rw [hs.stored, hs.log]
    exact hqueue q (hs.queue q hq)
  · rwa [hs.withdrawal, hs.stored]
  · rwa [hs.withdrawal, hs.stored]
  · rwa [hs.log, hs.stored]

theorem sameTexts_dequeueSubmit : SameTexts s (s.dequeueSubmit id) :=
  ⟨rfl, rfl, rfl, rfl, rfl, rfl, fun _ hq => List.mem_of_mem_filter hq⟩

theorem sameTexts_setComposerDraft (draft : String) : SameTexts s (s.setComposerDraft draft) :=
  ⟨rfl, rfl, rfl, rfl, rfl, rfl, fun _ hq => hq⟩

theorem sameTexts_clearComposerDraft (revision : Nat) : SameTexts s (s.clearComposerDraftIfRevision revision) := by
  unfold clearComposerDraftIfRevision
  split
  · exact ⟨rfl, rfl, rfl, rfl, rfl, rfl, fun _ hq => hq⟩
  · exact sameTexts_setComposerDraft _

theorem Texts.note (h : Texts s) {e : CockpitEvent} (hbrings : ∀ id text, Brings id text e → Said s.stored id text)
    (hqueue : ∀ q ∈ s.queue, e ≠ .withdrawn q.requestId true) : Texts (s.note e) := by
  obtain ⟨hone, hissued, hmarked, hhistory, hq, hpending, hrecovery, hbrought⟩ := h
  refine ⟨hone, hissued, fun r hr hm => ?_, hhistory, fun q hmem => ⟨(hq q hmem).1, fun hw => ?_⟩, hpending, hrecovery,
    fun id text x hx hb => ?_⟩
  · obtain ⟨x, hx, hres⟩ := hmarked r hr hm
    exact ⟨x, List.mem_append_left _ hx, hres⟩
  · rcases List.mem_append.mp hw with hw | hw
    · exact (hq q hmem).2 hw
    · exact hqueue q hmem (List.mem_singleton.mp hw).symm
  rcases List.mem_append.mp hx with hx | hx
  · exact hbrought id text x hx hb
  · exact hbrings id text (List.mem_singleton.mp hx ▸ hb)

theorem Texts.setWithdrawal (h : Texts s) {w : Option WithdrawalState}
    (hpending : ∀ p, w = some (.pending p) → Said s.stored p.requestId p.text)
    (hrecovery : ∀ id text now, w = some (.recovery id text now) → Said s.stored id text) : Texts (s.setWithdrawal w) :=
  { h with pending := hpending, recovery := hrecovery }

theorem Texts.unset (h : Texts s) : Texts (s.setWithdrawal none) := h.setWithdrawal nofun nofun

theorem Texts.upsert_of (h : Texts s) (hone : ∀ r ∈ s.stored, r.requestId = n.requestId → r.text = n.text)
    (hissued : n.requestId < s.issued) (hmarked : n.restoredAt.isSome = true → ∃ e ∈ s.log, Restores n.requestId e) :
    Texts (s.upsertSubmitRecord n) := by
  have hold : ∀ r ∈ s.stored, r ∈ s.stored ++ [n] := fun r hr => List.mem_append_left _ hr
  refine ⟨fun r hr r' hr' hid => ?_, fun r hr => ?_, fun r hr hm => ?_, fun id r hr => ?_, fun q hq => ?_, fun p hp => ?_,
    fun id text now hw => ?_, fun id text e he hb => ?_⟩
  · rcases List.mem_append.mp hr with hr | hr <;> rcases List.mem_append.mp hr' with hr' | hr'
    · exact h.one r hr r' hr' hid
    · cases List.mem_singleton.mp hr'
      exact hone r hr hid
    · cases List.mem_singleton.mp hr
      exact (hone r' hr' hid.symm).symm
    · rw [List.mem_singleton.mp hr, List.mem_singleton.mp hr']
  · rcases List.mem_append.mp hr with hr | hr
    · exact h.issued r hr
    · exact List.mem_singleton.mp hr ▸ hissued
  · rcases List.mem_append.mp hr with hr | hr
    · exact h.marked r hr hm
    · cases List.mem_singleton.mp hr
      exact hmarked hm
  · rcases submissionRecord_upsert hr with ⟨rfl, rfl⟩ | ⟨-, hr⟩
    · exact ⟨List.mem_append_right _ (List.mem_singleton_self _), rfl⟩
    · exact ⟨hold r (h.history id r hr).1, (h.history id r hr).2⟩
  · exact ⟨(h.queue q hq).1.mono hold, (h.queue q hq).2⟩
  · exact (h.pending p hp).mono hold
  · exact (h.recovery id text now hw).mono hold
  · exact (h.brought id text e he hb).mono hold

theorem Texts.upsert (h : Texts s) (hn : Faithful s n) : Texts (s.upsertSubmitRecord n) := by
  obtain ⟨r, hr, hid, htext⟩ := hn.said
  refine h.upsert_of (fun r' hr' hid' => ?_) (hid ▸ h.issued r hr) hn.marked
  rw [← htext]
  exact h.one r' hr' r hr (hid'.trans hid.symm)

theorem Texts.faithful (h : Texts s) (hr : r ∈ s.stored) (hid : n.requestId = r.requestId) (htext : n.text = r.text)
    (hmark : n.restoredAt.isSome = true → r.restoredAt.isSome = true ∨ ∃ e ∈ s.log, Restores r.requestId e) :
    Faithful s n := by
  refine ⟨⟨r, hr, hid.symm, htext.symm⟩, fun hm => ?_⟩
  rw [hid]
  exact (hmark hm).elim (h.marked r hr) fun h => h

theorem Texts.project {f : SubmitRecord → SubmitRecord} (h : Texts s) {o : Option SubmitRecord}
    (ho : ∀ r, o = some r → r ∈ s.stored ∧ r.requestId = id) (hid : ∀ r, (f r).requestId = r.requestId)
    (htext : ∀ r, (f r).text = r.text)
    (hmark : ∀ r, (f r).restoredAt.isSome = true → r.restoredAt.isSome = true ∨ ∃ e ∈ s.log, Restores id e) :
    Texts (s.applyProjectedRecord (o.map f)) := by
  cases ho' : o with
  | none => exact h
  | some r =>
    obtain ⟨hr, hrid⟩ := ho r ho'
    exact h.upsert (h.faithful hr (hid r) (htext r) (hrid ▸ hmark r))

theorem Texts.enqueue (h : Texts s) {q : QueuedSubmit} (hq : Said s.stored q.requestId q.text)
    (hw : .withdrawn q.requestId true ∉ s.log) : Texts (s.enqueueSubmit q) := by
  refine { h with queue := fun x hx => ?_ }
  rcases List.mem_append.mp (List.mem_of_mem_drop hx) with hx | hx
  · exact h.queue x hx
  · cases List.mem_singleton.mp hx
    exact ⟨hq, hw⟩

end PerSessionCockpit

end AgentsRemember.Cockpit
