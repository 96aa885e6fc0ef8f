import AgentsRemember.Hosted.DecidedSound

/-!
# Every run of sweeps and decisions

The invariant of the synchronizer: a decided gate that no sweep asks about is
ready for the next offer, and a sweep that waits holds the last offer of its
gate.
-/

namespace AgentsRemember.Hosted

open Lib JsonText SweepEvent
open Gate (GateRecord GateStore LogPath recordGateDecision decideGate applyGate expireGate)

/-! ## What a sweep does -/

inductive Synced (gates : GateStore) (entry : Entry) (gateId : String) : Option PendingInteraction → Sync → Prop
  | none (h : ∀ g i, (allCurrent gates).get? g.id = some g → g.state = .open → interactionIdentity g ≠ some (entry.id, i)) :
      Synced gates entry gateId none .quiet
  | quiet (interaction : PendingInteraction) : Synced gates entry gateId (some interaction) .quiet
  | create (interaction : PendingInteraction) (now : String) :
      Synced gates entry gateId (some interaction) (.write (questionGate entry interaction gateId now))
  | expire {g : GateRecord} {i : String} (now : String) (hg : (allCurrent gates).get? g.id = some g) (hopen : g.state = .open)
      (hid : interactionIdentity g = some (entry.id, i)) : Synced gates entry gateId none (.write (expireGate g now))
  | reopen {interaction : PendingInteraction} {g : GateRecord} (exc : HarnessControlError) (observedAt now : String)
      (hg : (allCurrent gates).get? g.id = some g) (hid : interactionIdentity g = some (entry.id, interaction.interactionId)) :
      Synced gates entry gateId (some interaction) (.write (reopenUndelivered g exc "not-sent" 0 observedAt now))
  | respond {interaction : PendingInteraction} {g : GateRecord} (response : String)
      (hg : (allCurrent gates).get? g.id = some g) (hid : interactionIdentity g = some (entry.id, interaction.interactionId))
      (hstate : g.state ∈ decidedStates) : Synced gates entry gateId (some interaction) (.respond g interaction.interactionId response)

theorem synced (gates : GateStore) (entry : Entry) (interaction : Option PendingInteraction) (gateId observedAt now : String) :
    Synced gates entry gateId interaction (syncInteraction gates entry interaction gateId observedAt now) := by
  unfold syncInteraction
  cases interaction with
  | none =>
    dsimp only [Option.map_none]
    cases hm : interactionGate gates entry.id none with
    | none =>
      refine .none fun g i hg hopen hid => ?_
      have hnone := List.find?_eq_none.mp hm g (mem_allCurrent.mpr hg)
      simp [hopen, hid] at hnone
    | some g =>
      have hg := mem_allCurrent.mp (List.mem_of_find?_eq_some hm)
      have hp := List.find?_some hm
      simp only [Bool.and_eq_true, decide_eq_true_eq, Option.map_eq_some_iff] at hp
      obtain ⟨hopen, ⟨_, i⟩, hid, rfl⟩ := hp
      dsimp only
      rw [if_pos hopen]
      exact .expire now hg hopen hid
  | some interaction =>
    dsimp only [Option.map_some]
    cases hm : interactionGate gates entry.id (some interaction.interactionId) with
    | none => exact .create interaction now
    | some g =>
      have hg := mem_allCurrent.mp (List.mem_of_find?_eq_some hm)
      have hp := List.find?_some hm
      have hid := of_decide_eq_true hp
      dsimp only
      split
      · rename_i hstate
        split
        · exact .reopen _ observedAt now hg hid
        · exact .respond _ hg hid hstate
      · exact .quiet interaction

theorem syncInteraction_congr {gates gates' : GateStore} (h : allCurrent gates = allCurrent gates') (entry : Entry)
    (interaction : Option PendingInteraction) (gateId observedAt now : String) :
    syncInteraction gates entry interaction gateId observedAt now =
      syncInteraction gates' entry interaction gateId observedAt now := by
  unfold syncInteraction interactionGate
  rw [h]

theorem interactionIdentity_questionGate (entry : Entry) (interaction : PendingInteraction) (gateId now : String) :
    interactionIdentity (questionGate entry interaction gateId now) = some (entry.id, interaction.interactionId) := by
  have hv : packetValue (questionGate entry interaction gateId now) "adapterInteraction" =
      some (adapterInteraction entry interaction) := packetValue_with rfl
  rw [interactionIdentity, hv]
  rfl

theorem counted_questionGate (entry : Entry) (interaction : PendingInteraction) (gateId now : String) :
    Counted (questionGate entry interaction gateId now) := by
  intro record hrecord
  cases hrecord

/-- A sweep reads what is there, sees no gate that is open for another interaction than the one that is pending (or one, when
none is), and is alone with its session; while the adapter is asked the gate is not decided, and the sweep does not die. -/
def Undisturbed (w : World) : Action → Prop
  | .sweep seen entry interaction _ _ _ =>
    allCurrent (w.gates.view seen) = allCurrent w.gates.store ∧
    (∀ t, some t ∈ w.sweeps → t.sessionId ≠ entry.id) ∧
    ((∀ i ∈ openInteractions w.gates.store entry.id, interaction.map (·.interactionId) = some i) ∨
      (interaction.isNone = true ∧ (openInteractions w.gates.store entry.id).length ≤ 1))
  | .decide _ _ gateId _ _ _ _ | .delete gateId _ => ∀ t, some t ∈ w.sweeps → t.gate.id ≠ gateId
  | .crash _ => False
  | .answered _ _ _ _ | .compact _ _ => True

/-! ## The invariant -/

def Offers (log : List SweepEvent) (g : GateRecord) (more : Nat) : Prop :=
  ∃ m : Nat, m ≤ 2 ∧ (m : Int) ≤ deliveryAttempts g ∧ OfferedAtMost g.id (m + more) log

structure Ready (log : List SweepEvent) (g : GateRecord) : Prop where
  clean : Clean g.id log none
  offers : Offers log g 0

structure InFlight (w : World) (i : Nat) (t : Responding) : Prop where
  written : t.gate ∈ w.written
  state : t.gate.state ∈ decidedStates
  identity : interactionIdentity t.gate = some (t.sessionId, t.interactionId)
  here : .sent i t.gate ∈ w.log
  since : ∀ a g b, w.log = a ++ .sent i g :: b → g = t.gate ∧ ∀ e ∈ b, ¬ DecidedOn g.id e
  clean : Clean t.gate.id w.log (some i)
  offers : Offers w.log t.gate 1

structure Orderly (w : World) : Prop where
  housed : Housed w
  applied : ∀ r ∈ w.written, r.state = .applied →
    ∃ i g now, .sent i g ∈ w.log ∧ .took i g ∈ w.log ∧ r = applyGate g now none
  log : LogSound w.log
  tasks : ∀ i t, w.sweeps[i]? = some (some t) → InFlight w i t
  distinct : ∀ (i j : Nat) (t t' : Responding), w.sweeps[i]? = some (some t) → w.sweeps[j]? = some (some t') → t.sessionId = t'.sessionId → i = j
  indexes : ∀ i g, .sent i g ∈ w.log → i < w.sweeps.length
  ready : ∀ p g, (w.gates.store.fold p).get? g.id = some g → g.state ∈ decidedStates →
    (∀ t, some t ∈ w.sweeps → t.gate.id ≠ g.id) → Ready w.log g

section
variable {log : List SweepEvent} {e : SweepEvent} {g : GateRecord} {w : World} {i : Nat} {t : Responding}

theorem Offers.concat {more : Nat} (h : Offers log g more) (he : isSent g.id e = false) : Offers (log ++ [e]) g more := by
  obtain ⟨m, hm, ha, ho⟩ := h
  exact ⟨m, hm, ha, ho.concat he⟩

theorem Ready.concat (h : Ready log g) (he : isSent g.id e = false) : Ready (log ++ [e]) g :=
  ⟨h.clean.concat he, h.offers.concat he⟩

theorem since_concat (h : ∀ a g b, log = a ++ .sent i g :: b → g = t.gate ∧ ∀ e ∈ b, ¬ DecidedOn g.id e)
    (hsent : ∀ g, e ≠ .sent i g) (hdecided : ¬ DecidedOn t.gate.id e) :
    ∀ a g b, log ++ [e] = a ++ .sent i g :: b → g = t.gate ∧ ∀ e ∈ b, ¬ DecidedOn g.id e := by
  intro a g b hl
  rcases concat_eq_append_cons hl with ⟨-, -, heq⟩ | ⟨b', rfl, hold⟩
  · exact absurd heq.symm (hsent g)
  obtain ⟨rfl, hb⟩ := h a g b' hold
  refine ⟨rfl, fun x hx => ?_⟩
  rcases List.mem_append.mp hx with hx | hx
  · exact hb x hx
  · exact List.mem_singleton.mp hx ▸ hdecided

theorem InFlight.note (h : InFlight w i t) (hsent : ∀ j g, e = .sent j g → j ≠ i ∧ g.id ≠ t.gate.id)
    (hdecided : ¬ DecidedOn t.gate.id e) {w' : World} (hw : ∀ r ∈ w.written, r ∈ w'.written) (hl : w'.log = w.log ++ [e]) :
    InFlight w' i t := by
  have hquiet : isSent t.gate.id e = false := by
    cases e with
    | sent j g => exact decide_eq_false (hsent j g rfl).2
    | _ => rfl
  refine ⟨hw _ h.written, h.state, h.identity, ?_, ?_, ?_, ?_⟩ <;> rw [hl]
  · exact List.mem_append_left _ h.here
  · exact since_concat h.since (fun g heq => (hsent i g heq).1 rfl) hdecided
  · exact h.clean.concat hquiet
  · exact h.offers.concat hquiet

/-! ## One step -/

def isPassive : SweepEvent → Bool
  | .sent _ _ | .decided _ => false
  | _ => true

theorem Orderly.note (h : Orderly w) (he : Fits w.log e) (hpassive : isPassive e = true) : Orderly (w.note e) := by
  have hsent : ∀ j g, e ≠ .sent j g := by
    rintro j g rfl
    cases hpassive
  have hdecided : ∀ id, ¬ DecidedOn id e := by
    intro id hd
    cases e with
    | decided g => cases hpassive
    | _ => exact hd
  have hquiet : ∀ id, isSent id e = false := by
    intro id
    cases e with
    | sent j g => cases hpassive
    | _ => rfl
  refine ⟨h.housed.congr rfl rfl, fun r hr ha => ?_, h.log.concat he, fun i t ht => ?_, h.distinct, fun i g hm => ?_, fun p g hg hs hfree => ?_⟩
  · obtain ⟨i, g, now, hs, htook, hrest⟩ := h.applied r hr ha
    exact ⟨i, g, now, List.mem_append_left _ hs, List.mem_append_left _ htook, hrest⟩
  · exact (h.tasks i t ht).note (fun j g heq => absurd heq (hsent j g)) (hdecided _) (fun _ hr => hr) rfl
  · rcases List.mem_append.mp hm with hm | hm
    · exact h.indexes i g hm
    · exact absurd (List.mem_singleton.mp hm).symm (hsent i g)
  · exact (h.ready p g hg hs hfree).concat (hquiet g.id)

theorem Orderly.push (h : Orderly w) : Orderly { w with sweeps := w.sweeps ++ [none] } := by
  have hold : ∀ {i : Nat} {t : Responding}, (w.sweeps ++ [none])[i]? = some (some t) → w.sweeps[i]? = some (some t) := by
    intro i t hi
    rcases getElem?_concat hi with hi | ⟨-, hi⟩
    · exact hi
    · cases hi
  refine ⟨h.housed.congr rfl rfl, h.applied, h.log, fun i t ht => ?_, fun i j t t' ht ht' hs => ?_, fun i g hm => ?_, fun p g hg hs hfree => ?_⟩
  · have hin := h.tasks i t (hold ht)
    exact { hin with }
  · exact h.distinct i j t t' (hold ht) (hold ht') hs
  · exact (h.indexes i g hm).trans_le (by simp)
  · exact h.ready p g hg hs fun t ht => hfree t (List.mem_append_left _ ht)

variable {r : GateRecord} {j : String}

theorem Orderly.append (h : Orderly w) (hr : ∀ r' ∈ w.written, r'.id = r.id → Again r' r) (hc : Counted r)
    (happlied : r.state ≠ .applied) (hready : r.state ∈ decidedStates → Ready w.log r) : Orderly (w.append r) := by
  refine ⟨h.housed.append hr hc, fun x hx ha => ?_, h.log, fun i t ht => ?_, h.distinct, h.indexes, fun p g hg hs hfree => ?_⟩
  · rcases List.mem_append.mp hx with hx | hx
    · exact h.applied x hx ha
    · exact absurd ha (List.mem_singleton.mp hx ▸ happlied)
  · have hin := h.tasks i t ht
    exact { hin with written := List.mem_append_left _ hin.written }
  rcases h.housed.fold_append hr hg with rfl | ⟨-, hold⟩
  · exact hready hs
  · exact h.ready p g hold hs hfree

theorem Orderly.appendUndecided (h : Orderly w) (hr : ∀ r' ∈ w.written, r'.id = r.id → Again r' r) (hc : Counted r)
    (hs : r.state = .open ∨ r.state = .expired) : Orderly (w.append r) := by
  refine h.append hr hc ?_ fun hd => absurd hd ?_
  · rcases hs with hs | hs <;> simp [hs]
  · rcases hs with hs | hs <;> simp [hs, decidedStates]

theorem Orderly.shrink {s' : GateStore} (h : Orderly w) (hlogs : ∀ p, ∀ r ∈ s'.log p, r ∈ w.gates.store.log p)
    (hfold : ∀ p id g, (s'.fold p).get? id = some g → (w.gates.store.fold p).get? id = some g) :
    Orderly { w with gates := w.gates.advance s' [] } := by
  refine ⟨h.housed.shrink hlogs, h.applied, h.log, fun i t ht => ?_, h.distinct, h.indexes, fun p g hg hs hfree => ?_⟩
  · have hin := h.tasks i t ht
    exact { hin with }
  · exact h.ready p g (hfold p g.id g hg) hs hfree

theorem Orderly.free (h : Orderly w) {sessionId : String} (halone : ∀ t, some t ∈ w.sweeps → t.sessionId ≠ sessionId)
    (hg : g ∈ w.written) (hid : interactionIdentity g = some (sessionId, j)) :
    ∀ t, some t ∈ w.sweeps → t.gate.id ≠ g.id := by
  intro t ht heq
  obtain ⟨i, hi⟩ := List.mem_iff_getElem?.mp ht
  have hin := h.tasks i t hi
  have hsame := (h.housed.again t.gate hin.written g hg heq).identity
  rw [hid, hin.identity, Option.some.injEq, Prod.mk.injEq] at hsame
  exact halone t ht hsame.1.symm

theorem Orderly.send (h : Orderly w) {entry : Entry} {response : String}
    (halone : ∀ t, some t ∈ w.sweeps → t.sessionId ≠ entry.id) (hg : (allCurrent w.gates.store).get? g.id = some g)
    (hid : interactionIdentity g = some (entry.id, j)) (hstate : g.state ∈ decidedStates) :
    Orderly ({ w with sweeps := w.sweeps ++ [some (Responding.mk entry.id g j response)] }.note (.sent w.sweeps.length g)) := by
  obtain ⟨p, hp⟩ := fold_of_allCurrent hg
  have hw := h.housed.written_of_fold hp
  have hfree := h.free halone hw hid
  have hready := h.ready p g hp hstate hfree
  obtain ⟨m, hm, hattempts, hoffers⟩ := hready.offers
  have hlast : ∀ {i : Nat} {t : Responding}, (w.sweeps ++ [some (Responding.mk entry.id g j response)])[i]? = some (some t) →
      w.sweeps[i]? = some (some t) ∨ (i = w.sweeps.length ∧ t = ⟨entry.id, g, j, response⟩) := by
    intro i t hi
    rcases getElem?_concat hi with hi | ⟨hlen, ht⟩
    · exact .inl hi
    · cases ht
      exact .inr ⟨hlen, rfl⟩
  refine ⟨h.housed.congr rfl rfl, fun r hr ha => ?_, h.log.concat ⟨hready.clean, hoffers.mono hm⟩, fun i t ht => ?_,
    fun i i' t t' ht ht' hs => ?_, fun i g' hmem => ?_, fun p' g' hg' hs hfree' => ?_⟩
  · obtain ⟨i, g', now, hs, htook, hrest⟩ := h.applied r hr ha
    exact ⟨i, g', now, List.mem_append_left _ hs, List.mem_append_left _ htook, hrest⟩
  · rcases hlast ht with ht | ⟨rfl, rfl⟩
    · refine (h.tasks i t ht).note (e := .sent w.sweeps.length g) (fun k g' heq => ?_) (fun hd => hd) (fun _ hr => hr) rfl
      cases heq
      have hlt := (List.getElem?_eq_some_iff.mp ht).1
      exact ⟨Ne.symm (Nat.ne_of_lt hlt), Ne.symm (hfree t (List.mem_of_getElem? ht))⟩
    refine ⟨hw, hstate, hid, List.mem_append_right _ (List.mem_singleton_self _), fun a g' b hl => ?_, hready.clean.send,
      ⟨m, hm, hattempts, hoffers.send⟩⟩
    rcases concat_eq_append_cons hl with ⟨rfl, -, heq⟩ | ⟨b', -, hold⟩
    · cases heq
      exact ⟨rfl, fun _ hx => absurd hx List.not_mem_nil⟩
    · have hmem : .sent w.sweeps.length g' ∈ w.log := hold ▸ List.mem_append_right _ List.mem_cons_self
      exact absurd (h.indexes _ g' hmem) (Nat.lt_irrefl _)
  · rcases hlast ht with ht | ⟨rfl, rfl⟩ <;> rcases hlast ht' with ht' | ⟨rfl, rfl⟩
    · exact h.distinct i i' t t' ht ht' hs
    · exact absurd hs (halone t (List.mem_of_getElem? ht))
    · exact absurd hs.symm (halone t' (List.mem_of_getElem? ht'))
    · rfl
  · show i < (w.sweeps ++ [some (Responding.mk entry.id g j response)]).length
    rw [List.length_append, List.length_singleton]
    rcases List.mem_append.mp hmem with hmem | hmem
    · exact Nat.lt_succ_of_lt (h.indexes i g' hmem)
    · cases List.mem_singleton.mp hmem
      exact Nat.lt_succ_self _
  · have hne : g.id ≠ g'.id := hfree' _ (List.mem_append_right _ (List.mem_singleton_self _))
    exact (h.ready p' g' hg' hs fun t ht => hfree' t (List.mem_append_left _ ht)).concat (decide_eq_false hne)

theorem Orderly.settle (h : Orderly w) (ht : w.sweeps[i]? = some (some t)) (hr : Again t.gate r) (hc : Counted r)
    (happlied : r.state = .applied → ∃ i g now, .sent i g ∈ w.log ∧ .took i g ∈ w.log ∧ r = applyGate g now none)
    (hready : r.state ∈ decidedStates → Ready w.log r) :
    Orderly ({ w with sweeps := w.sweeps.set i none }.append r) := by
  have hin := h.tasks i t ht
  have hagain : ∀ r' ∈ w.written, r'.id = r.id → Again r' r := fun r' hr' hid =>
    (h.housed.again r' hr' t.gate hin.written (hid.trans hr.id)).trans hr
  have hold : ∀ {j : Nat} {t' : Responding}, (w.sweeps.set i none)[j]? = some (some t') → w.sweeps[j]? = some (some t') := by
    intro j t' hj
    rcases getElem?_replaced hj with ⟨-, hj⟩ | ⟨-, hj⟩
    · exact hj
    · cases hj
  refine ⟨(h.housed.append hagain hc).congr rfl rfl, fun x hx ha => ?_, h.log, fun j t' hj => ?_,
    fun j k t' t'' hj hk hs => ?_, fun j g hm => ?_, fun p g hg hs hfree => ?_⟩
  · rcases List.mem_append.mp hx with hx | hx
    · exact h.applied x hx ha
    · rw [List.mem_singleton.mp hx] at ha ⊢
      exact happlied ha
  · have hin := h.tasks j t' (hold hj)
    exact { hin with written := List.mem_append_left _ hin.written }
  · exact h.distinct j k t' t'' (hold hj) (hold hk) hs
  · show j < (w.sweeps.set i none).length
    rw [List.length_set]
    exact h.indexes j g hm
  rcases h.housed.fold_append hagain hg with rfl | ⟨hne, hg⟩
  · exact hready hs
  refine h.ready p g hg hs fun t' ht' => ?_
  obtain ⟨j, hj⟩ := List.mem_iff_getElem?.mp ht'
  by_cases hji : j = i
  · subst hji
    rw [ht, Option.some.injEq, Option.some.injEq] at hj
    rw [← hj, ← hr.id]
    exact Ne.symm hne
  · refine hfree t' (List.mem_iff_getElem?.mpr ⟨j, ?_⟩)
    exact (List.getElem?_set_ne (Ne.symm hji)).trans hj

end

/-! ## Every step -/

section
variable {parse : String → Option Stamp} {w v : World} {g : GateRecord}

variable {entry : Entry} {interaction : Option PendingInteraction} {r : GateRecord} {observedAt reason : String}

theorem Orderly.swept (h : Orderly w)
    (hopens : ∀ i ∈ openInteractions w.gates.store entry.id, interaction.map (·.interactionId) = some i) :
    Orderly (w.swept entry interaction)  := h.note hopens rfl

theorem Housed.again_of (h : Housed w) (hg : g ∈ w.written) (hr : Again g r) :
    ∀ r' ∈ w.written, r'.id = r.id → Again r' r :=
  fun r' hr' hid => (h.again r' hr' g hg (hid.trans hr.id)).trans hr

theorem Orderly.sweep (h : Orderly w) {gateId now : String} (hfresh : w.fresh gateId = true)
    (halone : ∀ t, some t ∈ w.sweeps → t.sessionId ≠ entry.id)
    (hopens : (∀ i ∈ openInteractions w.gates.store entry.id, interaction.map (·.interactionId) = some i) ∨
      (interaction.isNone = true ∧ (openInteractions w.gates.store entry.id).length ≤ 1)) :
    Orderly (w.sweep w.gates.store entry interaction gateId observedAt now) := by
  have hsync := synced w.gates.store entry interaction gateId observedAt now
  have hnew : ∀ r' ∈ w.written, r'.id ≠ gateId := fun r' hr' => of_decide_eq_true (List.all_eq_true.mp hfresh r' hr')
  unfold World.sweep
  generalize syncInteraction w.gates.store entry interaction gateId observedAt now = sync at hsync
  cases hsync with
  | none hnone =>
    refine h.push.swept fun i hi => ?_
    obtain ⟨g, hg, hopen, hid⟩ := mem_openInteractions.mp hi
    exact absurd hid (hnone g i hg hopen)
  | quiet interaction => exact h.push.swept (hopens.resolve_right fun hn => nomatch hn.1)
  | create interaction now =>
    have hopens := hopens.resolve_right fun hn => nomatch hn.1
    have hagain : ∀ r' ∈ w.written, r'.id = (questionGate entry interaction gateId now).id →
        Again r' (questionGate entry interaction gateId now) := fun r' hr' heq => absurd heq (hnew r' hr')
    refine (h.push.appendUndecided hagain (counted_questionGate _ _ _ _) (.inl rfl)).swept fun i hi => ?_
    rcases h.housed.openInteractions_append hagain hi with ⟨-, hid⟩ | ⟨g, -, hg, hopen, hid⟩
    · rw [interactionIdentity_questionGate, Option.some.injEq, Prod.mk.injEq] at hid
      exact congrArg some hid.2
    · exact hopens i (mem_openInteractions.mpr ⟨g, hg, hopen, hid⟩)
  | @expire g j now hg hopen hid =>
    obtain ⟨p, hp⟩ := fold_of_allCurrent hg
    have hw := h.housed.written_of_fold hp
    have hagain := h.housed.again_of hw (r := expireGate g now) (again_of_packet rfl rfl rfl)
    have hone := (hopens.resolve_left fun hall => nomatch hall j (mem_openInteractions.mpr ⟨g, hg, hopen, hid⟩)).2
    refine (h.push.appendUndecided hagain (counted_of_packet (h.housed.counted g hw) rfl) (.inr rfl)).swept fun i hi => ?_
    rcases h.housed.openInteractions_append hagain hi with ⟨hopen', -⟩ | ⟨g', hne, hg', hopen', hid'⟩
    · cases hopen'
    · have hsame := open_unique hone hg hopen hid hg' hopen' hid'
      exact absurd (congrArg GateRecord.id hsame).symm hne
  | @reopen interaction g exc observedAt now hg hid =>
    have hopens := hopens.resolve_right fun hn => nomatch hn.1
    obtain ⟨p, hp⟩ := fold_of_allCurrent hg
    have hw := h.housed.written_of_fold hp
    have hfailed : Again g (reopenUndelivered g exc "not-sent" 0 observedAt now) := again_failure rfl rfl rfl
    have hagain := h.housed.again_of hw hfailed
    refine (h.push.appendUndecided hagain (counted_failure rfl (Int.le_refl 0)) (.inl rfl)).swept fun i hi => ?_
    rcases h.housed.openInteractions_append hagain hi with ⟨-, hid'⟩ | ⟨g', -, hg', hopen', hid'⟩
    · rw [hfailed.identity, hid, Option.some.injEq, Prod.mk.injEq] at hid'
      exact congrArg some hid'.2
    · exact hopens i (mem_openInteractions.mpr ⟨g', hg', hopen', hid'⟩)
  | respond response hg hid hstate =>
    exact (h.send halone hg hid hstate).swept (hopens.resolve_right fun hn => nomatch hn.1)

variable {i : Nat} {t : Responding} {observedAt now : String}

theorem recorded_failure (h : InFlight w i t) {log : List SweepEvent} (hl : ∀ e ∈ w.log, e ∈ log) {delivery : String}
    {attempts : Int} (hid : r.id = t.gate.id)
    (hp : r.packet = withDeliveryFailure t.gate reason delivery attempts observedAt) :
    ∃ g reason delivery attempts observedAt, .sent i g ∈ log ∧ r.id = g.id ∧
      packetValue r "adapterDecisionFailure" = some (.obj (failureRecord g reason delivery attempts observedAt)) :=
  ⟨t.gate, reason, delivery, attempts, observedAt, hl _ h.here, hid, packetValue_failure hp⟩

theorem Orderly.applied_answer (h : Orderly w) (ht : w.sweeps[i]? = some (some t)) : Orderly
    ((({ w with sweeps := w.sweeps.set i none }.append (applyGate t.gate now none)).note (.took i t.gate)).note
      (.settled i (applyGate t.gate now none))) := by
  have hin := h.tasks i t ht
  have htook : Orderly (w.note (.took i t.gate)) := h.note trivial rfl
  have hsettled : Orderly ((w.note (.took i t.gate)).note (.settled i (applyGate t.gate now none))) := by
    refine htook.note ⟨fun a g b hl => ((htook.tasks i t ht).since a g b hl).2, fun a b g hl => ?_, nofun⟩ rfl
    cases (List.append_inj' hl rfl).2
  refine hsettled.settle ht (again_of_packet rfl rfl rfl) (counted_of_packet (h.housed.counted _ hin.written) rfl)
    (fun _ => ⟨i, t.gate, now, ?_, ?_, rfl⟩) fun hs => absurd hs (by simp [applyGate, decidedStates])
  · exact List.mem_append_left _ (List.mem_append_left _ hin.here)
  · exact List.mem_append_left _ (List.mem_append_right _ (List.mem_singleton_self _))

theorem Orderly.unknown_answer (h : Orderly w) (ht : w.sweeps[i]? = some (some t)) (exc : HarnessControlError) (attempts : Int)
    (hn : 0 ≤ attempts) : Orderly
    (({ w with sweeps := w.sweeps.set i none }.append (reopenUndelivered t.gate exc "unknown" attempts observedAt now)).note
      (.settled i (reopenUndelivered t.gate exc "unknown" attempts observedAt now))) := by
  have hin := h.tasks i t ht
  have hsettled : Orderly (w.note (.settled i (reopenUndelivered t.gate exc "unknown" attempts observedAt now))) :=
    h.note ⟨fun a g b hl => (hin.since a g b hl).2, fun _ _ _ _ _ _ => rfl,
      fun _ => recorded_failure hin (fun _ he => he) rfl rfl⟩ rfl
  exact hsettled.settle ht (again_failure rfl rfl rfl) (counted_failure rfl hn) nofun
    fun hs => absurd hs (by simp [reopenUndelivered, Gate.reopenGate, decidedStates])

theorem Orderly.unsent_answer (h : Orderly w) (ht : w.sweeps[i]? = some (some t)) (hid : r.id = t.gate.id)
    (hl : r.lifecycleId = t.gate.lifecycleId)
    (hp : r.packet = withDeliveryFailure t.gate reason "not-sent" (deliveryAttempts t.gate + 1) observedAt)
    (hspent : interactionDeliveryAttemptLimit ≤ deliveryAttempts t.gate + 1 → r.state = .open)
    (hkept : ¬ interactionDeliveryAttemptLimit ≤ deliveryAttempts t.gate + 1 →
      r.state = t.gate.state ∧ r.decidedAt = t.gate.decidedAt) : Orderly
    ((({ w with sweeps := w.sweeps.set i none }.append r).note (.unsent i t.gate)).note (.settled i r)) := by
  have hin := h.tasks i t ht
  obtain ⟨m, hm, hattempts, hoffers⟩ := hin.offers
  have hunsent : Orderly (w.note (.unsent i t.gate)) := h.note trivial rfl
  have hsettled : Orderly ((w.note (.unsent i t.gate)).note (.settled i r)) := by
    refine hunsent.note ⟨fun a g b hl => ((hunsent.tasks i t ht).since a g b hl).2, fun a b g hl hb hcount => ?_,
      fun _ => recorded_failure hin (fun _ he => List.mem_append_left _ he) hid hp⟩ rfl
    obtain ⟨hlog, heq⟩ := List.append_inj' hl rfl
    cases heq
    have hle := Int.ofNat_le.mpr (hoffers a b hlog hb)
    rw [hcount] at hle
    exact hspent (by push_cast at hle; omega)
  have hnone : r.state ≠ .applied := by
    by_cases hs : interactionDeliveryAttemptLimit ≤ deliveryAttempts t.gate + 1
    · simp [hspent hs]
    intro ha
    have hstate := hin.state
    rw [← (hkept hs).1, ha] at hstate
    exact absurd hstate (by decide)
  have hcounted : Counted r := by
    have hn := deliveryAttempts_nonneg (h.housed.counted _ hin.written)
    exact counted_failure hp (by omega)
  refine hsettled.settle ht (again_failure hid hl hp) hcounted (fun ha => absurd ha hnone) fun hs => ?_
  have hkeep : ¬ interactionDeliveryAttemptLimit ≤ deliveryAttempts t.gate + 1 := by
    intro hlimit
    rw [hspent hlimit] at hs
    exact absurd hs (by decide)
  have hcount : deliveryAttempts r = deliveryAttempts t.gate + 1 := deliveryAttempts_failure hp (hkept hkeep).2
  have honly : ∀ g', .sent i g' ∈ w.log → g' = t.gate := by
    intro g' hmem
    obtain ⟨a, b, hlog⟩ := List.append_of_mem hmem
    exact (hin.since a g' b hlog).1
  refine ⟨?_, m + 1, ?_, ?_, ?_⟩
  · rw [hid]
    exact (hin.clean.unsent honly).concat rfl
  · unfold interactionDeliveryAttemptLimit at hkeep
    omega
  · push_cast
    omega
  · rw [hid]
    exact (hoffers.concat rfl).concat rfl

theorem Orderly.answered (h : Orderly w) (ht : w.sweeps[i]? = some (some t)) (answer : Except HarnessControlError Unit) : Orderly
    ((({ w with sweeps := w.sweeps.set i none }.append (respondAnswered t.gate answer observedAt now)).noteAnswer i t.gate
      answer).note (.settled i (respondAnswered t.gate answer observedAt now))) := by
  cases answer with
  | ok a => exact h.applied_answer ht
  | error exc =>
    have hn := deliveryAttempts_nonneg (h.housed.counted _ (h.tasks i t ht).written)
    unfold respondAnswered recordDeliveryFailure World.noteAnswer
    dsimp only
    by_cases hsent : provenUnsent exc = false
    · rw [if_pos hsent, if_neg (by simp [hsent])]
      exact h.unknown_answer ht exc _ (by omega)
    rw [if_neg hsent, if_pos (by simpa using hsent)]
    by_cases hlimit : interactionDeliveryAttemptLimit ≤ deliveryAttempts t.gate + 1
    · rw [if_pos hlimit]
      exact h.unsent_answer ht rfl rfl rfl (fun _ => rfl) fun hnot => absurd hlimit hnot
    · rw [if_neg hlimit]
      exact h.unsent_answer ht rfl rfl rfl (fun hpos => absurd hpos hlimit) fun _ => ⟨rfl, rfl⟩

theorem Orderly.decide (h : Orderly w) {u : GateRecord} (hg : g ∈ w.written) {verdict : Gate.GateVerdict}
    {refs : List Gate.GateEvidenceRef} (hu : decideGate g verdict now refs = some u)
    (hfree : ∀ t, some t ∈ w.sweeps → t.gate.id ≠ g.id) : Orderly ((w.append u).note (.decided u)) := by
  obtain ⟨hsame, -⟩ := Gate.decideGate_spec hu
  have hstate := Gate.decideGate_state hu
  have hpacket : u.packet = g.packet := by
    obtain ⟨s, -, rfl⟩ := Option.map_eq_some_iff.mp hu
    rfl
  have hcounted : Counted u := counted_of_packet (h.housed.counted g hg) hpacket
  have hready : ∀ g', g'.id = u.id → Counted g' → Ready (w.log ++ [.decided u]) g' := by
    intro g' hid hc
    exact ⟨clean_decided hid.symm, 0, by decide, deliveryAttempts_nonneg hc, offered_decided hid.symm⟩
  have hnoted : Orderly (w.note (.decided u)) := by
    refine ⟨h.housed.congr rfl rfl, fun r hr ha => ?_, h.log.concat trivial, fun i t ht => ?_, h.distinct, fun i g' hm => ?_,
      fun p g' hg' hs hfree' => ?_⟩
    · obtain ⟨i, g', now, hs, htook, hrest⟩ := h.applied r hr ha
      exact ⟨i, g', now, List.mem_append_left _ hs, List.mem_append_left _ htook, hrest⟩
    · refine (h.tasks i t ht).note (fun j g' heq => by cases heq) (fun hd => ?_) (fun _ hr => hr) rfl
      exact hfree t (List.mem_of_getElem? ht) (hd.symm.trans hsame.id)
    · rcases List.mem_append.mp hm with hm | hm
      · exact h.indexes i g' hm
      · cases List.mem_singleton.mp hm
    by_cases hid : g'.id = u.id
    · exact hready g' hid (h.housed.counted g' (h.housed.written_of_fold hg'))
    · exact (h.ready p g' hg' hs hfree').concat rfl
  exact hnoted.append (h.housed.again_of hg (again_of_packet hsame.id hsame.lifecycleId hpacket)) hcounted hstate.2.1
    fun _ => hready u rfl hcounted

theorem Orderly.step (h : Orderly w) {a : Action} (hok : Undisturbed w a) (hstep : w.step parse a = some v) : Orderly v := by
  cases a with
  | sweep seen entry interaction gateId observedAt now =>
    simp only [World.step] at hstep
    split at hstep
    · rename_i hfresh
      cases hstep
      obtain ⟨hseen, halone, hopens⟩ := hok
      have hsame := syncInteraction_congr hseen entry interaction gateId observedAt now
      have hsweep : Orderly (w.sweep w.gates.store entry interaction gateId observedAt now) := h.sweep hfresh halone hopens
      unfold World.sweep at hsweep ⊢
      rw [hsame]
      exact hsweep
    · cases hstep
  | answered i answer observedAt now =>
    simp only [World.step] at hstep
    split at hstep
    · rename_i t ht
      cases hstep
      exact h.answered ht answer
    · cases hstep
  | crash i => exact hok.elim
  | decide seen policy gateId lifecycleId verdict refs now =>
    simp only [World.step] at hstep
    split at hstep
    · rename_i u hu
      cases hstep
      obtain ⟨g, p, hg, hu, -⟩ := Gate.recordGateDecision_ok hu
      have hid := (GateStore.fold_mem hg).2
      exact h.decide (h.housed.written_of_view hg) hu fun t ht => hid ▸ hok t ht
    · cases hstep
  | delete gateId lifecycleId =>
    cases hstep
    refine h.shrink (fun p r hr => ?_) fun p id g hg => GateStore.fold_of_delete hg
    rw [GateStore.log_delete] at hr
    split at hr
    · exact (List.mem_filter.mp hr).1
    · exact hr
  | compact lifecycleId now =>
    cases hstep
    refine h.shrink (fun p r hr => ?_) fun p id g hg => GateStore.fold_of_compact hg
    rw [GateStore.log_compact] at hr
    split at hr
    · exact (List.mem_filter.mp hr).1
    · exact hr

end

structure AsDecided (w : World) : Prop extends LogSound w.log where
  applied : ∀ r ∈ w.written, r.state = .applied →
    ∃ i g now, .sent i g ∈ w.log ∧ .took i g ∈ w.log ∧ r = applyGate g now none

def AlwaysAsDecided (ok : World → Action → Prop) : Prop :=
  ∀ (parse : String → Option Stamp) (w : World), Reachable (sweepSystem parse) ok w → AsDecided w

/-- **Decisions are applied as decided**, in every run that nothing disturbs. -/
theorem always_as_decided (parse : String → Option Stamp) (w : World) (hw : Reachable (sweepSystem parse) Undisturbed w) :
    AsDecided w := by
  have hinit : Orderly (sweepSystem parse).init := by
    refine ⟨⟨fun s hs p r hr => ?_, fun _ hr => absurd hr List.not_mem_nil, fun _ hr => absurd hr List.not_mem_nil⟩,
      fun _ hr => absurd hr List.not_mem_nil, logSound_nil, fun i t ht => ?_, fun i j t t' ht => ?_,
      fun _ _ hm => absurd hm List.not_mem_nil, fun p g hg => ?_⟩
    · rw [List.mem_singleton.mp hs] at hr
      cases hr
    · cases ht
    · cases ht
    · cases hg
  have h : Orderly w := hw.invariant hinit fun _ _ _ hs hok hst => hs.step hok hst
  exact ⟨h.log, h.applied⟩

/-! ## A decision while the adapter is asked -/

instance (sweeps : List (Option Responding)) (p : Responding → Prop) [DecidablePred p] : Decidable (∀ t, some t ∈ sweeps → p t) :=
  decidable_of_iff (∀ t ∈ sweeps.filterMap id, p t) (by simp only [List.mem_filterMap, id, exists_eq_right])

instance (w : World) : (a : Action) → Decidable (Undisturbed w a)
  | .sweep seen entry interaction _ _ _ =>
    inferInstanceAs (Decidable (allCurrent (w.gates.view seen) = allCurrent w.gates.store ∧
      (∀ t, some t ∈ w.sweeps → t.sessionId ≠ entry.id) ∧
      ((∀ i ∈ openInteractions w.gates.store entry.id, interaction.map (·.interactionId) = some i) ∨
        (interaction.isNone = true ∧ (openInteractions w.gates.store entry.id).length ≤ 1))))
  | .decide _ _ gateId _ _ _ _ | .delete gateId _ =>
    inferInstanceAs (Decidable (∀ t, some t ∈ w.sweeps → t.gate.id ≠ gateId))
  | .crash _ => .isFalse fun h => h
  | .answered _ _ _ _ | .compact _ _ => .isTrue trivial

def hostedSession : Entry := ⟨"s", some "l"⟩

def deployQuestion : PendingInteraction where
  interactionId := "i"
  kind := ""
  prompt := ""
  choices := []
  createdAt := ""
  raw := []
  questions := []

def sweptAt (now : String) : Action := .sweep (fun _ => 0) hostedSession (some deployQuestion) now now now

def decidedAs (decision now : String) : Action :=
  .decide (fun _ => 0) Gate.defaultGatePolicy "1" (some "l") { decision := decision, via := .dashboard, by' := none } [] now

def offeredTwice : List Action :=
  [sweptAt "1", decidedAs "approve" "2", sweptAt "3", .answered 1 (.error ⟨"", some false⟩) "4" "4", sweptAt "5",
    .answered 2 (.ok ()) "6" "6"]

def decidedTwice : List Action :=
  [sweptAt "1", decidedAs "approve" "2", sweptAt "3", decidedAs "reject" "4", .answered 1 (.ok ()) "5" "5"]

theorem always_as_decided_applied : ∃ w, w.written.map (·.state) = [.open, .approved, .approved, .applied] ∧ AsDecided w := by
  have hrun : (checkedRun (sweepSystem fun _ => none) Undisturbed init offeredTwice).any
      (fun w => decide (w.written.map (·.state) = [.open, .approved, .approved, .applied])) = true := by decide +kernel
  obtain ⟨w, hw, hstates⟩ := exists_of_checkedRun hrun
  exact ⟨w, of_decide_eq_true hstates, always_as_decided _ w hw⟩

def overwrites : List SweepEvent → Bool
  | [_, _, .sent i g, _, .decided g', _, .settled j _] => decide (i = j) && decide (g'.id = g.id)
  | _ => false

/-- The first decision is appended over the second, as applied. -/
theorem decision_overwritten : ¬ AlwaysAsDecided fun _ _ => True := by
  intro h
  have hrun : (runFrom (sweepSystem fun _ => none) init decidedTwice).any (fun w => overwrites w.log) = true := by
    decide +kernel
  obtain ⟨w, hw, hover⟩ := (Option.any_eq_true _ _).mp hrun
  have hkept := (h _ w (steps_of_runFrom (fun _ _ _ => trivial) hw)).kept
  unfold overwrites at hover
  split at hover
  · rename_i e₁ e₂ i g e₃ g' e₄ j r hlog
    simp only [Bool.and_eq_true, decide_eq_true_eq] at hover
    obtain ⟨rfl, hid⟩ := hover
    exact hkept [e₁, e₂] i g [e₃, .decided g', e₄] r [] hlog (.decided g') (by simp) hid
  · cases hover

end AgentsRemember.Hosted
