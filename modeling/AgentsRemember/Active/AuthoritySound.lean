import AgentsRemember.Active.UpsertSound

/-!
# The authority of user items

The verdict on a request resolves the first stored item that waits for it and
no other. Where no other item bears the request, every item that does carries
the authority of the last verdict.
-/

namespace AgentsRemember.Active

open Lib

section
variable {β : Type}

def ConversationItem.requestId? (item : ConversationItem β) : Option String := item.correlation.bind (·.requestId)

/-- The whole authority triple is the one that a verdict with this source gives. -/
def ConversationItem.Carries (item : ConversationItem β) (source : SubmissionSource) : Prop :=
  item.lane = source.authority.1 ∧ item.source = source.authority.2.1 ∧ item.provenance.strength = .exact ∧
    item.provenance.producer = some source.authority.2.2

def ProjectionStore.firstPending (s : ProjectionStore β) (requestId : String) : Option String :=
  (s.provenancePending.entries.find? fun pending => pending.2 = requestId).map (·.1)

/-- A store and, as a ghost, the last known source of each request. -/
structure Verdicts (β : Type) where
  store : ProjectionStore β
  known : Dict String SubmissionSource
  deriving DecidableEq

def Verdicts.noted (v : Verdicts β) : Call β → Dict String SubmissionSource
  | .applyProvenance requestId (some source) => v.known.set requestId source
  | _ => v.known

def verdictSystem (β : Type) [BEq β] : System (Verdicts β) (Call β) where
  init := ⟨.empty, .empty⟩
  step v c := (v.store.call c).map fun called => ⟨called.1, v.noted c⟩

/-- Every stored user item whose request has a known source carries its authority. -/
def Resolved (v : Verdicts β) : Prop :=
  ∀ id item requestId source, v.store.items.get? id = some item → item.role = .user → item.requestId? = some requestId →
    v.known.get? requestId = some source → item.Carries source

/-- An item of a request with a verdict comes with its authority, and a verdict finds no item of its request but the first
that waits, or that has the authority, and takes none from another request. -/
def Reaches (v : Verdicts β) : Call β → Prop
  | .applyItem candidate => candidate.role = .user → ∀ requestId source, candidate.requestId? = some requestId →
      v.known.get? requestId = some source →
      (match v.store.items.get? candidate.itemId with
        | none => candidate
        | some existing => preservedInputAuthority existing candidate).Carries source
  | .applyProvenance requestId (some source) =>
      (∀ id item, v.store.items.get? id = some item → item.role = .user → item.requestId? = some requestId →
        v.store.firstPending requestId = some id ∨ item.Carries source) ∧
      ∀ id item other source', v.store.firstPending requestId = some id → v.store.items.get? id = some item → item.role = .user →
        item.requestId? = some other → other ≠ requestId → v.known.get? other = some source' → source' = source
  | _ => True

/-! ## What a call leaves of an item's head -/

structure SameHead (item item' : ConversationItem β) : Prop where
  role : item'.role = item.role
  lane : item'.lane = item.lane
  source : item'.source = item.source
  provenance : item'.provenance = item.provenance
  correlation : item'.correlation = item.correlation

variable {item item' : ConversationItem β} {source : SubmissionSource} {s' : ProjectionStore β}
  {ms : List (StoreMutation β)}

theorem SameHead.carries (h : SameHead item item') (hc : item.Carries source) : item'.Carries source := by
  rwa [ConversationItem.Carries, h.lane, h.source, h.provenance]

theorem SameHead.requestId? (h : SameHead item item') : item'.requestId? = item.requestId? := by
  rw [ConversationItem.requestId?, h.correlation]
  rfl

theorem SameHead.received (h : SameHead item item') (blockId delta : String) :
    SameHead item (item'.received blockId delta) := by
  unfold ConversationItem.received
  split <;> exact { h with }

theorem sameHead_upserted (existing candidate : ConversationItem β) :
    SameHead (preservedInputAuthority existing candidate)
      (ProjectionStore.upserted existing (mergeCandidate existing candidate)) := by
  rw [mergeCandidate_eq]
  exact ⟨rfl, rfl, rfl, rfl, rfl⟩

variable [BEq β] {v : Verdicts β}

theorem applyItem_resolved (hs : v.store.toTimeline.Sound) (hb : v.store.Buffers) (hr : Resolved v)
    {candidate : ConversationItem β} (hok : Reaches v (.applyItem candidate))
    (happly : v.store.applyItem candidate = some (s', ms)) : Resolved ⟨s', v.known⟩ := by
  -- The one item that changes has the head that the condition speaks of.
  suffices h : ∃ head, SameHead (match v.store.items.get? candidate.itemId with
      | none => candidate
      | some existing => preservedInputAuthority existing candidate) head ∧
      ∀ id item, s'.items.get? id = some item → v.store.items.get? id = some item ∨ SameHead head item by
    obtain ⟨head, hhead, hitems⟩ := h
    intro id item requestId source hget hrole hrequest hknown
    rcases hitems id item hget with hold | hnew
    · exact hr id item requestId source hold hrole hrequest hknown
    refine hnew.carries (hhead.carries (hok ?_ requestId source ?_ hknown))
    · rw [← hrole, hnew.role, hhead.role]
      split <;> rfl
    · rw [← hrequest, hnew.requestId?, hhead.requestId?]
      split <;> rfl
  cases hget : v.store.items.get? candidate.itemId with
  | none =>
    obtain ⟨t, ms', arrived, hcall, harrived, hhead, hothers, -⟩ := arrival_rule
      (P := fun _ item => SameHead candidate item) (fun _ _ _ h _ => h) (fun delta _ _ h _ => h.received _ _) hget
      ⟨rfl, rfl, rfl, rfl, rfl⟩
    obtain ⟨rfl, -⟩ := Prod.mk.inj (Option.some.inj (hcall.symm.trans happly))
    refine ⟨candidate, ⟨rfl, rfl, rfl, rfl, rfl⟩, fun id item hitem => ?_⟩
    by_cases hid : id = candidate.itemId
    · rw [hid, harrived] at hitem
      exact .inr (Option.some.inj hitem ▸ hhead)
    · exact .inl ((hothers id hid).symm.trans hitem)
  | some existing =>
    refine ⟨ProjectionStore.upserted existing (mergeCandidate existing candidate), sameHead_upserted existing candidate, ?_⟩
    intro id item hitem
    rcases applyItem_updates hs hb hget happly with ⟨-, rfl⟩ | ⟨-, hitems⟩
    · exact .inl hitem
    rw [hitems, Dict.get?_set] at hitem
    split at hitem
    · exact .inr (Option.some.inj hitem ▸ ⟨rfl, rfl, rfl, rfl, rfl⟩)
    · exact .inl hitem

omit [BEq β] in
theorem applyDelta_resolved (hr : Resolved v) (delta : MappedBlockDelta) :
    Resolved ⟨(v.store.applyDelta delta).1, v.known⟩ := by
  intro id item requestId source hget hrole hrequest hknown
  unfold ProjectionStore.applyDelta at hget
  cases hold : v.store.items.get? delta.itemId with
  | none =>
    simp only [hold] at hget
    exact hr id item requestId source ((congrArg (fun t => t.items.get? id) (bufferDelta_timeline v.store delta)).symm.trans hget)
      hrole hrequest hknown
  | some existing =>
    simp only [hold, extend_store] at hget
    have hhead : SameHead existing (existing.received (delta.target existing) delta.delta) :=
      SameHead.received ⟨rfl, rfl, rfl, rfl, rfl⟩ _ _
    rw [show (v.store.setItem (existing.received (delta.target existing) delta.delta)).items =
      v.store.items.set _ _ from rfl, Dict.get?_set] at hget
    split at hget
    · obtain rfl := Option.some.inj hget
      exact hhead.carries (hr delta.itemId existing requestId source hold (hhead.role ▸ hrole) (hhead.requestId? ▸ hrequest) hknown)
    · exact hr id item requestId source hget hrole hrequest hknown

omit [BEq β] in
theorem applyProvenance_resolved (hr : Resolved v) {requestId : String}
    (hok : Reaches v (.applyProvenance requestId (some source)))
    (happly : v.store.applyProvenance requestId (some source) = some (s', ms)) :
    Resolved ⟨s', v.known.set requestId source⟩ := by
  obtain ⟨hfirst, hothers⟩ := hok
  intro id item request source' hget hrole hrequest hknown
  change s'.items.get? id = some item at hget
  change (v.known.set requestId source).get? request = some source' at hknown
  rw [Dict.get?_set] at hknown
  -- An item that the call leaves as it was.
  have hkept : v.store.items.get? id = some item → v.store.firstPending requestId ≠ some id → item.Carries source' := by
    intro hold hne
    by_cases hreq : requestId = request
    · rw [if_pos hreq] at hknown
      rw [← Option.some.inj hknown]
      exact (hfirst id item hold hrole (hreq ▸ hrequest)).resolve_left hne
    · rw [if_neg hreq] at hknown
      exact hr id item request source' hold hrole hrequest hknown
  unfold ProjectionStore.applyProvenance at happly
  cases hfind : v.store.provenancePending.entries.find? fun pending => pending.2 = requestId with
  | none =>
    simp only [hfind, Option.some.injEq, Prod.mk.injEq] at happly
    obtain ⟨rfl, -⟩ := happly
    exact hkept hget (by rw [ProjectionStore.firstPending, hfind]; nofun)
  | some pending =>
    obtain ⟨itemId, waits⟩ := pending
    have hpending : v.store.firstPending requestId = some itemId := by rw [ProjectionStore.firstPending, hfind]; rfl
    simp only [hfind] at happly
    obtain ⟨old, hold, happly⟩ := Option.map_eq_some_iff.mp happly
    obtain ⟨rfl, -⟩ := Prod.mk.inj happly
    change (v.store.items.set itemId (ProjectionStore.attributed old source)).get? id = some item at hget
    rw [Dict.get?_set] at hget
    by_cases hid : itemId = id
    · rw [if_pos hid] at hget
      obtain rfl := Option.some.inj hget
      have hsource : source' = source := by
        by_cases hreq : requestId = request
        · rw [if_pos hreq] at hknown
          exact (Option.some.inj hknown).symm
        · rw [if_neg hreq] at hknown
          exact hothers itemId old request source' hpending hold hrole hrequest (Ne.symm hreq) hknown
      rw [hsource]
      exact ⟨rfl, rfl, rfl, rfl⟩
    · rw [if_neg hid] at hget
      exact hkept hget fun he => hid (Option.some.inj (hpending.symm.trans he))

theorem verdicts_sound (h : Reachable (verdictSystem β) always v) : v.store.toTimeline.Sound ∧ v.store.Buffers := by
  refine h.invariant (I := fun v => v.store.toTimeline.Sound ∧ v.store.Buffers) 
    ⟨sound_empty, (show Accounts False (activeSystem β).init from accounts_init).buffers⟩ ?_
  intro v c v' ⟨hs, hb⟩ _ hstep
  obtain ⟨s', ms, hcall, hemits, hbuffers⟩ := serves_free hs hb (c := c)
  simp only [verdictSystem, hcall, Option.map_some, Option.some.injEq] at hstep
  subst hstep
  exact ⟨hemits.sound hs, hbuffers⟩

/-- In a run whose calls meet the condition every user item of a request with a verdict carries the verdict's authority. -/
theorem provenance_resolved (h : Reachable (verdictSystem β) Reaches v) : Resolved v := by
  induction h with
  | refl =>
    intro id item requestId source hget
    cases hget
  | @tail v v' c hrun hok hstep ih =>
    obtain ⟨hs, hb⟩ := verdicts_sound hrun.always
    obtain ⟨⟨s', ms⟩, hcall, rfl⟩ := Option.map_eq_some_iff.mp hstep
    cases c with
    | applyItem candidate => exact applyItem_resolved hs hb ih hok hcall
    | applyDelta delta =>
      have heq : (v.store.applyDelta delta).1 = s' := congrArg Prod.fst (Option.some.inj hcall)
      exact heq ▸ applyDelta_resolved ih delta
    | applyProvenance requestId source =>
      cases source with
      | some source => exact applyProvenance_resolved ih hok hcall
      | none =>
        have heq := congrArg Prod.fst (Option.some.inj hcall)
        intro id item request source' hget
        exact ih id item request source' (by rw [← heq] at hget; exact hget)

end

def askedItem (itemId : String) : ConversationItem Nat :=
  { harnessItem itemId .message .completed [] with
    role := .user, lane := .unknownInput, source := .nativeHistory, correlation := some { requestId := some "r" } }

def askedStore : Verdicts Nat where
  store := ((⟨⟨⟨[("u", { askedItem "u" with revision := 1, globalOrdinal := 1 })], by simp⟩, ["u"]⟩, Dict.empty, Dict.empty, []⟩ :
    ProjectionStore Nat).trackProvenance (askedItem "u"))
  known := Dict.empty

theorem provenance_resolved_asked : ∃ v, Reachable (verdictSystem Nat) Reaches v ∧ v.known.get? "r" = some .cockpit ∧ Resolved v := by
  have hfirst : (verdictSystem Nat).step (verdictSystem Nat).init (.applyItem (askedItem "u")) = some askedStore := by decide +kernel
  obtain ⟨v, hv⟩ : ∃ v, (verdictSystem Nat).step askedStore (.applyProvenance "r" (some .cockpit)) = some v :=
    Option.isSome_iff_exists.mp (by decide +kernel)
  have hitem : ∀ id item, askedStore.store.items.get? id = some item → id = "u" ∧ item.requestId? = some "r" := by
    intro id item hget
    have hmem := Dict.get?_eq_some.mp hget
    rw [show askedStore.store.items.entries = [("u", { askedItem "u" with revision := 1, globalOrdinal := 1 })] from rfl,
      List.mem_singleton] at hmem
    obtain ⟨rfl, rfl⟩ := Prod.mk.inj hmem
    exact ⟨rfl, rfl⟩
  have hrun : Reachable (verdictSystem Nat) Reaches v := by
    have hreaches : Reaches askedStore (.applyProvenance "r" (some .cockpit)) := by
      constructor
      · intro id item hget _ _
        rw [(hitem id item hget).1]
        exact .inl (by decide +kernel)
      · intro id item other source' _ hget _ hother hne
        exact absurd (Option.some.inj (hother.symm.trans (hitem id item hget).2)) hne
    have hopened : Reaches (verdictSystem Nat).init (.applyItem (askedItem "u")) := by
      intro _ requestId source _ hknown
      cases hknown
    exact .tail (.tail .refl hopened hfirst) hreaches hv
  refine ⟨v, hrun, ?_, provenance_resolved hrun⟩
  have hknown : ((verdictSystem Nat).step askedStore (.applyProvenance "r" (some .cockpit))).all
      (fun v => v.known.get? "r" = some .cockpit) = true := by decide +kernel
  simpa [hv] using hknown

/-- The verdict resolves the first of two items that wait for it. -/
theorem second_item_unresolved : ¬ ∀ v, Reachable (verdictSystem Nat) always v → Resolved v := by
  intro hall
  let calls : List (Call Nat) := [.applyItem (askedItem "u"), .applyItem (askedItem "v"), .applyProvenance "r" (some .cockpit)]
  obtain ⟨v, hv⟩ : ∃ v, runFrom (verdictSystem Nat) (verdictSystem Nat).init calls = some v :=
    Option.isSome_iff_exists.mp (by decide +kernel)
  have hleft : (runFrom (verdictSystem Nat) (verdictSystem Nat).init calls).all (fun v =>
      (v.store.items.get? "v").any (fun item => item.role = .user ∧ item.requestId? = some "r" ∧ item.lane = .unknownInput) &&
        decide (v.known.get? "r" = some .cockpit)) = true := by decide +kernel
  rw [hv, Option.all_some, Bool.and_eq_true, Option.any_eq_true] at hleft
  obtain ⟨⟨item, hget, hitem⟩, hknown⟩ := hleft
  obtain ⟨hrole, hrequest, hlane⟩ := of_decide_eq_true hitem
  have hcarries := hall v (reachable_of_runFrom hv) "v" item "r" .cockpit hget hrole hrequest (of_decide_eq_true hknown)
  have hne : item.lane ≠ .operator := by rw [hlane]; decide
  exact hne hcarries.1

end AgentsRemember.Active
