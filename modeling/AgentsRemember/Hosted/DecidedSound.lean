import AgentsRemember.Hosted.World

/-!
# The gates of a session

All snapshots of a gate are in one log and ask about one interaction, so the
gates of all logs together are the gates of the logs; and what a sweep sees
open is what is open.
-/

namespace AgentsRemember.Hosted

open Lib JsonText
open Gate (GateRecord GateStore LogPath logPath foldGates)

/-! ## All logs together -/

theorem get?_mergeCurrent (latest current : Dict String GateRecord) (id : String) :
    (mergeCurrent latest current).get? id = (current.get? id).or (latest.get? id) := by
  have hfold : ∀ (l : List (String × GateRecord)) (d : Dict String GateRecord), (l.map Prod.fst).Nodup →
      (l.foldl (fun d e => d.set e.1 e.2) d).get? id = (Dict.lookupIn id l).or (d.get? id) := by
    intro l
    induction l with
    | nil => exact fun d _ => rfl
    | cons e l ih =>
      intro d hl
      obtain ⟨k, v⟩ := e
      rw [List.map_cons, List.nodup_cons] at hl
      rw [List.foldl_cons, ih _ hl.2, Dict.get?_set, Dict.lookupIn]
      by_cases hk : k = id
      · subst hk
        rw [if_pos rfl, if_pos rfl, Dict.lookupIn_eq_none.mpr hl.1]
        rfl
      · rw [if_neg hk, if_neg hk]
  exact hfold current.entries latest current.nodup

structure Homed (s : GateStore) : Prop where
  routed : ∀ p, ∀ r ∈ s.log p, logPath r.lifecycleId = p
  home : ∀ p p' r r', r ∈ s.log p → r' ∈ s.log p' → r.id = r'.id → p = p'

section
variable {s : GateStore} {g : GateRecord} {id : String}

theorem current_eq (s : GateStore) (l : Option String) : s.current l = s.fold (logPath l) := rfl

variable {p : LogPath} {g' : GateRecord} {ls : List (Option String)} {sessionId i : String}

theorem Homed.eq_of_fold (h : Homed s) {p' : LogPath} (hg : (s.fold p).get? id = some g)
    (hg' : (s.fold p').get? id = some g') : p = p' := by
  obtain ⟨hm, hid⟩ := GateStore.fold_mem hg
  obtain ⟨hm', hid'⟩ := GateStore.fold_mem hg'
  exact h.home p p' g g' hm hm' (hid.trans hid'.symm)

theorem of_foldl_merge : ∀ {d : Dict String GateRecord},
    (ls.foldl (fun latest l => mergeCurrent latest (s.current l)) d).get? id = some g →
      d.get? id = some g ∨ ∃ l ∈ ls, (s.current l).get? id = some g := by
  induction ls with
  | nil => exact fun h => .inl h
  | cons l ls ih =>
    intro d h
    rcases ih h with h | ⟨l', hl', h⟩
    · rw [get?_mergeCurrent, Option.or_eq_some_iff] at h
      rcases h with h | ⟨-, h⟩
      · exact .inr ⟨l, List.mem_cons_self, h⟩
      · exact .inl h
    · exact .inr ⟨l', List.mem_cons_of_mem _ hl', h⟩

theorem foldl_merge_of : ∀ {d : Dict String GateRecord},
    (∀ l ∈ ls, (s.current l).get? id = none ∨ (s.current l).get? id = some g) →
      (d.get? id = some g ∨ ∃ l ∈ ls, (s.current l).get? id = some g) →
      (ls.foldl (fun latest l => mergeCurrent latest (s.current l)) d).get? id = some g := by
  induction ls with
  | nil => exact fun _ h => h.resolve_right fun ⟨_, hl, _⟩ => absurd hl List.not_mem_nil
  | cons l ls ih =>
    intro d hall h
    refine ih (fun l' hl' => hall l' (List.mem_cons_of_mem _ hl')) ?_
    rw [get?_mergeCurrent, Option.or_eq_some_iff]
    rcases hall l List.mem_cons_self with hl | hl
    · rcases h with h | ⟨l', hl', h⟩
      · exact .inl (.inr ⟨hl, h⟩)
      rcases List.mem_cons.mp hl' with rfl | hl'
      · rw [hl] at h
        cases h
      · exact .inr ⟨l', hl', h⟩
    · exact .inl (.inl hl)

theorem fold_of_allCurrent (h : (allCurrent s).get? id = some g) : ∃ p, (s.fold p).get? id = some g := by
  rcases of_foldl_merge h with h | ⟨l, -, h⟩
  · cases h
  · exact ⟨logPath l, h⟩

theorem mem_lifecycleIds {l : String} (h : LogPath.lifecycle l ∈ s.logs.keys) : l ∈ s.lifecycleIds := by
  unfold GateStore.lifecycleIds
  rw [List.mem_insertionSort, List.mem_filterMap]
  exact ⟨.lifecycle l, h, rfl⟩

theorem allCurrent_of_fold (hs : Homed s) (h : (s.fold p).get? id = some g) : (allCurrent s).get? id = some g := by
  refine foldl_merge_of (fun l _ => ?_) (.inr ?_)
  · cases hl : (s.current l).get? id with
    | none => exact .inl rfl
    | some g' =>
      obtain rfl := hs.eq_of_fold h hl
      exact .inr (hl.symm.trans h)
  have hm := (GateStore.fold_mem h).1
  have hp := hs.routed p g hm
  have hkey : p ∈ s.logs.keys := by
    rw [Dict.mem_keys]
    by_contra hnot
    rw [GateStore.log, Option.eq_none_iff_forall_ne_some.mpr fun v hv => hnot ⟨v, hv⟩] at hm
    exact absurd hm List.not_mem_nil
  cases p with
  | workspace => exact ⟨none, List.mem_append_right _ (List.mem_singleton_self _), h⟩
  | lifecycle l =>
    refine ⟨some l, List.mem_append_left _ (List.mem_map_of_mem (mem_lifecycleIds hkey)), ?_⟩
    have hl : logPath (some l) = .lifecycle l := by
      unfold logPath at hp ⊢
      split at hp
      · rename_i ht
        cases hp
        rw [if_pos]
        · rfl
        · simpa [truthy] using ht
      · cases hp
    rw [current_eq, hl]
    exact h

theorem mem_allCurrent : g ∈ (allCurrent s).values ↔ (allCurrent s).get? g.id = some g := by
  rw [Dict.mem_values]
  constructor
  · rintro ⟨k, hk⟩
    obtain ⟨p, hp⟩ := fold_of_allCurrent hk
    rw [(GateStore.fold_mem hp).2]
    exact hk
  · exact fun h => ⟨g.id, h⟩

theorem mem_openInteractions : i ∈ openInteractions s sessionId ↔
    ∃ g, (allCurrent s).get? g.id = some g ∧ g.state = .open ∧ interactionIdentity g = some (sessionId, i) := by
  unfold openInteractions
  rw [List.mem_filterMap]
  constructor
  · rintro ⟨g, hg, h⟩
    split at h
    · rename_i hopen
      obtain ⟨⟨s', i'⟩, hid, h⟩ := Option.bind_eq_some_iff.mp h
      split at h
      · rename_i hs
        cases h
        exact ⟨g, mem_allCurrent.mp hg, hopen, by rw [hid, ← hs]⟩
      · cases h
    · cases h
  · rintro ⟨g, hg, hopen, hid⟩
    refine ⟨g, mem_allCurrent.mpr hg, ?_⟩
    rw [if_pos hopen, hid, Option.bind_some, if_pos rfl]

theorem open_unique {j : String} (hone : (openInteractions s sessionId).length ≤ 1)
    (hg : (allCurrent s).get? g.id = some g) (hopen : g.state = .open)
    (hid : interactionIdentity g = some (sessionId, i)) (hg' : (allCurrent s).get? g'.id = some g')
    (hopen' : g'.state = .open) (hid' : interactionIdentity g' = some (sessionId, j)) : g = g' := by
  by_contra hne
  have htwo : ∀ {l : List GateRecord} {f : GateRecord → Option String}, g ∈ l → g' ∈ l → (f g).isSome → (f g').isSome →
      2 ≤ (l.filterMap f).length := by
    intro l f
    induction l with
    | nil => exact fun h => absurd h List.not_mem_nil
    | cons x l ih =>
      intro h h' hf hf'
      have hsome : ∀ {y}, y ∈ l → (f y).isSome → 1 ≤ (l.filterMap f).length := by
        intro y hy hfy
        obtain ⟨z, hz⟩ := Option.isSome_iff_exists.mp hfy
        exact List.length_pos_of_mem (List.mem_filterMap.mpr ⟨y, hy, hz⟩)
      rcases List.mem_cons.mp h with rfl | hl <;> rcases List.mem_cons.mp h' with rfl | hl'
      · exact absurd rfl hne
      · obtain ⟨z, hz⟩ := Option.isSome_iff_exists.mp hf
        rw [List.filterMap_cons_some hz, List.length_cons]
        exact Nat.succ_le_succ (hsome hl' hf')
      · obtain ⟨z, hz⟩ := Option.isSome_iff_exists.mp hf'
        rw [List.filterMap_cons_some hz, List.length_cons]
        exact Nat.succ_le_succ (hsome hl hf)
      · refine (ih hl hl' hf hf').trans ?_
        rw [List.filterMap_cons]
        split
        · exact Nat.le_refl _
        · exact Nat.le_succ _
  have htwice := htwo (f := fun gate =>
      if gate.state = .open then
        (interactionIdentity gate).bind fun identity => if identity.1 = sessionId then some identity.2 else none
      else none) (mem_allCurrent.mpr hg) (mem_allCurrent.mpr hg') (by simp [hopen, hid]) (by simp [hopen', hid'])
  exact absurd (htwice.trans hone) (by decide)

end

/-! ## Snapshots of one gate -/

structure Again (g r : GateRecord) : Prop where
  id : r.id = g.id
  lifecycleId : r.lifecycleId = g.lifecycleId
  interaction : packetValue r "adapterInteraction" = packetValue g "adapterInteraction"

/-- No count of attempts is negative. -/
def Counted (g : GateRecord) : Prop :=
  ∀ record, (packetValue g "adapterDecisionFailure").bind asObject = some record →
    ∀ n, (field record "attempts").bind asInteger = some n → 0 ≤ n

section
variable {g r : GateRecord}

theorem Again.refl (g : GateRecord) : Again g g := ⟨rfl, rfl, rfl⟩

theorem Again.symm (h : Again g r) : Again r g := ⟨h.1.symm, h.2.symm, h.3.symm⟩

theorem Again.trans {u : GateRecord} (h : Again g r) (h' : Again r u) : Again g u :=
  ⟨h'.1.trans h.1, h'.2.trans h.2, h'.3.trans h.3⟩

theorem Again.identity (h : Again g r) : interactionIdentity r = interactionIdentity g := by
  rw [interactionIdentity, h.interaction, interactionIdentity]

theorem again_of_packet (hid : r.id = g.id) (hl : r.lifecycleId = g.lifecycleId) (hp : r.packet = g.packet) : Again g r := by
  refine ⟨hid, hl, ?_⟩
  rw [packetValue, hp, packetValue]

theorem counted_of_packet (h : Counted g) (hp : r.packet = g.packet) : Counted r := by
  intro record hrecord
  rw [packetValue, hp] at hrecord
  exact h record hrecord

/-! ### The failure record -/

variable {reason delivery observedAt : String} {attempts : Int}

theorem field_failureRecord_attempts :
    field (failureRecord g reason delivery attempts observedAt) "attempts" = some (integer attempts) := by
  unfold failureRecord field
  cases g.decidedAt <;> cases g.decidedBy <;> cases g.decidedVia <;> cases g.decidingRole <;> cases g.decisionNote <;> rfl

theorem field_failureRecord_decidedAt :
    field (failureRecord g reason delivery attempts observedAt) "decidedAt" = g.decidedAt.map text := by
  unfold failureRecord field
  cases g.decidedAt <;> cases g.decidedBy <;> cases g.decidedVia <;> cases g.decidingRole <;> cases g.decisionNote <;> rfl

theorem packetValue_failure (hp : r.packet = withDeliveryFailure g reason delivery attempts observedAt) :
    packetValue r "adapterDecisionFailure" = some (.obj (failureRecord g reason delivery attempts observedAt)) :=
  packetValue_with hp

theorem again_failure (hid : r.id = g.id) (hl : r.lifecycleId = g.lifecycleId)
    (hp : r.packet = withDeliveryFailure g reason delivery attempts observedAt) : Again g r :=
  ⟨hid, hl, packetValue_with_ne (by decide) hp⟩

theorem counted_failure (hp : r.packet = withDeliveryFailure g reason delivery attempts observedAt) (hn : 0 ≤ attempts) :
    Counted r := by
  intro record hrecord n hattempts
  rw [packetValue_failure hp, Option.bind_some, asObject, Option.some.injEq] at hrecord
  rw [← hrecord, field_failureRecord_attempts, Option.bind_some, asInteger_integer, Option.some.injEq] at hattempts
  exact hattempts ▸ hn

theorem deliveryAttempts_failure (hp : r.packet = withDeliveryFailure g reason delivery attempts observedAt)
    (hd : r.decidedAt = g.decidedAt) : deliveryAttempts r = attempts := by
  have hsame : optionalText (g.decidedAt.map text) = some g.decidedAt := by
    cases g.decidedAt <;> rfl
  unfold deliveryAttempts deliveryFailure
  rw [packetValue_failure hp, Option.bind_some, asObject, Option.filter_some, field_failureRecord_decidedAt, hd, hsame,
    if_pos (decide_eq_true rfl), Option.bind_some, field_failureRecord_attempts, Option.bind_some, asInteger_integer,
    Option.getD_some]

theorem deliveryAttempts_nonneg (h : Counted g) : 0 ≤ deliveryAttempts g := by
  unfold deliveryAttempts
  cases hn : ((deliveryFailure g).bind fun record => field record "attempts").bind asInteger with
  | none => exact Int.le_refl 0
  | some n =>
    rw [Option.bind_assoc] at hn
    obtain ⟨record, hrecord, hn⟩ := Option.bind_eq_some_iff.mp hn
    exact h record (Option.filter_eq_some_iff.mp hrecord).1 n hn

end

/-! ## What was ever written -/

structure Housed (w : World) : Prop where
  stores : ∀ s ∈ w.gates.store :: w.gates.past, ∀ p, ∀ r ∈ s.log p, r ∈ w.written ∧ logPath r.lifecycleId = p
  again : ∀ r ∈ w.written, ∀ r' ∈ w.written, r.id = r'.id → Again r r'
  counted : ∀ r ∈ w.written, Counted r

section
variable {w : World} {g r : GateRecord} {id : String} {p : LogPath}

variable {s : GateStore}

theorem Housed.homed (h : Housed w) (hs : s ∈ w.gates.store :: w.gates.past) : Homed s := by
  refine ⟨fun p r hr => (h.stores s hs p r hr).2, fun p p' r r' hr hr' hid => ?_⟩
  obtain ⟨hw, hp⟩ := h.stores s hs p r hr
  obtain ⟨hw', hp'⟩ := h.stores s hs p' r' hr'
  rw [← hp, ← hp', (h.again r hw r' hw' hid).lifecycleId]

theorem Housed.congr (h : Housed w) {w' : World} (hg : w'.gates = w.gates) (hw : w'.written = w.written) : Housed w' := by
  refine ⟨?_, ?_, ?_⟩
  · rw [hg, hw]
    exact h.stores
  · rw [hw]
    exact h.again
  · rw [hw]
    exact h.counted

theorem Housed.written_of_fold (h : Housed w) (hg : (w.gates.store.fold p).get? id = some g) : g ∈ w.written :=
  (h.stores _ List.mem_cons_self p g (GateStore.fold_mem hg).1).1

theorem Housed.written_of_view (h : Housed w) {seen : LogPath → Nat} (hg : ((w.gates.view seen).fold p).get? id = some g) :
    g ∈ w.written := by
  have hm := (GateStore.fold_mem hg).1
  have hview : g ∈ ((w.gates.store :: w.gates.past).getD (seen p) w.gates.store).log p := by
    rw [GateStore.log, Gate.World.view, Dict.get?_mapKeyed] at hm
    cases hk : w.gates.store.logs.get? p with
    | none =>
      rw [hk] at hm
      exact absurd hm List.not_mem_nil
    | some l =>
      rw [hk] at hm
      exact hm
  refine (h.stores _ ?_ p g hview).1
  rw [List.getD_eq_getElem?_getD]
  cases hs : (w.gates.store :: w.gates.past)[seen p]? with
  | none => exact List.mem_cons_self
  | some s => exact List.mem_of_getElem? hs

theorem Housed.append (h : Housed w) (hr : ∀ r' ∈ w.written, r'.id = r.id → Again r' r) (hc : Counted r) :
    Housed (w.append r) := by
  refine ⟨fun s hs p r' hr' => ?_, fun x hx y hy hid => ?_, fun x hx => ?_⟩
  · have hold : ∀ s ∈ w.gates.store :: w.gates.past, ∀ p, ∀ x ∈ s.log p, x ∈ (w.append r).written ∧ logPath x.lifecycleId = p :=
      fun s hs p x hx => ⟨List.mem_append_left _ (h.stores s hs p x hx).1, (h.stores s hs p x hx).2⟩
    rcases List.mem_cons.mp hs with rfl | hs
    · change r' ∈ (w.gates.store.append r).log p at hr'
      rw [GateStore.log_append] at hr'
      split at hr'
      · rename_i hp
        rcases List.mem_append.mp hr' with hr' | hr'
        · exact hold _ List.mem_cons_self p r' hr'
        · rw [List.mem_singleton.mp hr']
          exact ⟨List.mem_append_right _ (List.mem_singleton_self _), hp⟩
      · exact hold _ List.mem_cons_self p r' hr'
    · exact hold s hs p r' hr'
  · rcases List.mem_append.mp hx with hx | hx <;> rcases List.mem_append.mp hy with hy | hy
    · exact h.again x hx y hy hid
    · rw [List.mem_singleton.mp hy] at hid ⊢
      exact hr x hx hid
    · rw [List.mem_singleton.mp hx] at hid ⊢
      exact (hr y hy hid.symm).symm
    · rw [List.mem_singleton.mp hx, List.mem_singleton.mp hy]
      exact Again.refl r
  · rcases List.mem_append.mp hx with hx | hx
    · exact h.counted x hx
    · exact List.mem_singleton.mp hx ▸ hc

theorem Housed.shrink (h : Housed w) {s' : GateStore} (hs : ∀ p, ∀ r ∈ s'.log p, r ∈ w.gates.store.log p) :
    Housed { w with gates := w.gates.advance s' [] } := by
  refine ⟨fun s hmem p r hr => ?_, h.again, h.counted⟩
  rcases List.mem_cons.mp hmem with rfl | hmem
  · exact h.stores _ List.mem_cons_self p r (hs p r hr)
  · exact h.stores s hmem p r hr

theorem fold_append_cases (h : ((s.append r).fold p).get? id = some g) :
    (g = r ∧ id = r.id) ∨ (s.fold p).get? id = some g := by
  rw [GateStore.fold_append] at h
  split at h
  · rename_i hr
    cases h
    exact .inl ⟨rfl, hr.2.symm⟩
  · exact .inr h

theorem Housed.fold_append (h : Housed w) (hr : ∀ r' ∈ w.written, r'.id = r.id → Again r' r)
    (hg : ((w.gates.store.append r).fold p).get? g.id = some g) :
    g = r ∨ (g.id ≠ r.id ∧ (w.gates.store.fold p).get? g.id = some g) := by
  rcases fold_append_cases hg with ⟨rfl, -⟩ | hold
  · exact .inl rfl
  by_cases hid : g.id = r.id
  · obtain ⟨hm, -⟩ := GateStore.fold_mem hold
    obtain ⟨hw, hp⟩ := h.stores _ List.mem_cons_self p g hm
    rw [GateStore.fold_append, if_pos ⟨by rw [(hr g hw hid).lifecycleId, hp], hid.symm⟩] at hg
    exact .inl (Option.some.inj hg).symm
  · exact .inr ⟨hid, hold⟩

theorem Housed.allCurrent_append (h : Housed w) (hr : ∀ r' ∈ w.written, r'.id = r.id → Again r' r)
    (hg : (allCurrent (w.gates.store.append r)).get? g.id = some g) :
    g = r ∨ (g.id ≠ r.id ∧ (allCurrent w.gates.store).get? g.id = some g) := by
  obtain ⟨p, hp⟩ := fold_of_allCurrent hg
  refine (h.fold_append hr hp).imp_right fun ⟨hne, hold⟩ => ⟨hne, ?_⟩
  exact allCurrent_of_fold (h.homed List.mem_cons_self) hold

theorem Housed.openInteractions_append (h : Housed w) (hr : ∀ r' ∈ w.written, r'.id = r.id → Again r' r) {sessionId i : String}
    (hi : i ∈ openInteractions (w.gates.store.append r) sessionId) :
    (r.state = .open ∧ interactionIdentity r = some (sessionId, i)) ∨
      ∃ g, g.id ≠ r.id ∧ (allCurrent w.gates.store).get? g.id = some g ∧ g.state = .open ∧
        interactionIdentity g = some (sessionId, i) := by
  obtain ⟨g, hg, hopen, hid⟩ := mem_openInteractions.mp hi
  rcases h.allCurrent_append hr hg with rfl | ⟨hne, hold⟩
  · exact .inl ⟨hopen, hid⟩
  · exact .inr ⟨g, hne, hold, hopen, hid⟩

end

/-! ## Decisions are applied as decided

While nothing interferes with a sweep, the packet's count of attempts is the
number of offers since the decision, and every offer but the last is known not
to have been sent. A decision that comes while the adapter is asked, a second
sweep beside it, and a sweep that dies there leave no trace in the gate.
-/

open Lib JsonText SweepEvent
open Gate (GateRecord GateStore LogPath recordGateDecision decideGate applyGate expireGate)

/-! ## The log -/

def DecidedOn (id : String) : SweepEvent → Prop
  | .decided gate => gate.id = id
  | _ => False

def isSent (id : String) : SweepEvent → Bool
  | .sent _ gate => gate.id = id
  | _ => false

structure LogSound (log : List SweepEvent) : Prop where
  -- No decision is recorded between a response and what the sweep then appends.
  kept : ∀ a i g b r c, log = a ++ .sent i g :: (b ++ .settled i r :: c) → ∀ e ∈ b, ¬ DecidedOn g.id e
  -- What is sent again was decided again, or is certified unsent.
  once : ∀ a i g b j g' c, log = a ++ .sent i g :: (b ++ .sent j g' :: c) → g'.id = g.id →
    (∃ e ∈ b, DecidedOn g.id e) ∨ .unsent i g ∈ b
  bounded : ∀ id a b c, log = a ++ b ++ c → (∀ e ∈ b, ¬ DecidedOn id e) →
    (b.countP (isSent id) : Int) ≤ interactionDeliveryAttemptLimit
  reopened : ∀ a b i g r c, log = a ++ b ++ .unsent i g :: .settled i r :: c → (∀ e ∈ b, ¬ DecidedOn g.id e) →
    (b.countP (isSent g.id) : Int) = interactionDeliveryAttemptLimit → r.state = .open
  recorded : ∀ i r, .settled i r ∈ log → r.state = .open →
    ∃ g reason delivery attempts observedAt, .sent i g ∈ log ∧ r.id = g.id ∧
      packetValue r "adapterDecisionFailure" = some (.obj (failureRecord g reason delivery attempts observedAt))
  pending : ∀ sessionId pending opens, .swept sessionId pending opens ∈ log → ∀ i ∈ opens, pending = some i

def Clean (id : String) (log : List SweepEvent) (under : Option Nat) : Prop :=
  ∀ a k g b, log = a ++ .sent k g :: b → g.id = id → (∃ e ∈ b, DecidedOn id e) ∨ .unsent k g ∈ b ∨ under = some k

def OfferedAtMost (id : String) (n : Nat) (log : List SweepEvent) : Prop :=
  ∀ a b, log = a ++ b → (∀ e ∈ b, ¬ DecidedOn id e) → b.countP (isSent id) ≤ n

variable {log : List SweepEvent} {e : SweepEvent} {id : String} {under : Option Nat} {n : Nat}

theorem suffix_concat {a b : List SweepEvent} (h : log ++ [e] = a ++ b) : b = [] ∨ ∃ b', b = b' ++ [e] ∧ log = a ++ b' := by
  rcases List.eq_nil_or_concat b with rfl | ⟨b', e', rfl⟩
  · exact .inl rfl
  rw [List.concat_eq_append, ← List.append_assoc] at h
  obtain ⟨rfl, he⟩ := List.append_inj' h rfl
  cases he
  exact .inr ⟨b', List.concat_eq_append, rfl⟩

theorem Clean.concat (h : Clean id log under) (he : isSent id e = false) : Clean id (log ++ [e]) under := by
  intro a k g b hl hg
  rcases concat_eq_append_cons hl with ⟨-, -, rfl⟩ | ⟨b', rfl, hold⟩
  · rw [isSent, decide_eq_false_iff_not] at he
    exact absurd hg he
  rcases h a k g b' hold hg with ⟨x, hx, hd⟩ | hx | hx
  · exact .inl ⟨x, List.mem_append_left _ hx, hd⟩
  · exact .inr (.inl (List.mem_append_left _ hx))
  · exact .inr (.inr hx)

theorem clean_decided (he : DecidedOn id e) : Clean id (log ++ [e]) under := by
  intro a k g b hl _
  rcases concat_eq_append_cons hl with ⟨-, -, rfl⟩ | ⟨b', rfl, -⟩
  · exact absurd he fun h => h
  · exact .inl ⟨e, List.mem_append_right _ (List.mem_singleton_self _), he⟩

variable {i : Nat} {g : GateRecord}

theorem Clean.send (h : Clean id log none) : Clean id (log ++ [.sent i g]) (some i) := by
  intro a k g' b hl hg
  rcases concat_eq_append_cons hl with ⟨-, -, heq⟩ | ⟨b', rfl, hold⟩
  · cases heq
    exact .inr (.inr rfl)
  rcases h a k g' b' hold hg with ⟨x, hx, hd⟩ | hx | hx
  · exact .inl ⟨x, List.mem_append_left _ hx, hd⟩
  · exact .inr (.inl (List.mem_append_left _ hx))
  · cases hx

theorem Clean.unsent (h : Clean id log (some i)) (honly : ∀ g', .sent i g' ∈ log → g' = g) :
    Clean id (log ++ [.unsent i g]) none := by
  intro a k g' b hl hg
  rcases concat_eq_append_cons hl with ⟨-, -, heq⟩ | ⟨b', rfl, hold⟩
  · cases heq
  rcases h a k g' b' hold hg with ⟨x, hx, hd⟩ | hx | hx
  · exact .inl ⟨x, List.mem_append_left _ hx, hd⟩
  · exact .inr (.inl (List.mem_append_left _ hx))
  cases hx
  have hmem : .sent i g' ∈ log := hold ▸ List.mem_append_right _ List.mem_cons_self
  rw [honly g' hmem]
  exact .inr (.inl (List.mem_append_right _ (List.mem_singleton_self _)))

theorem OfferedAtMost.mono {m : Nat} (h : OfferedAtMost id n log) (hm : n ≤ m) : OfferedAtMost id m log :=
  fun a b hl hb => (h a b hl hb).trans hm

theorem OfferedAtMost.concat (h : OfferedAtMost id n log) (he : isSent id e = false) : OfferedAtMost id n (log ++ [e]) := by
  intro a b hl hb
  rcases suffix_concat hl with rfl | ⟨b', rfl, hold⟩
  · exact Nat.zero_le _
  · rw [List.countP_append, List.countP_singleton, he]
    exact h a b' hold fun x hx => hb x (List.mem_append_left _ hx)

theorem OfferedAtMost.send (h : OfferedAtMost id n log) : OfferedAtMost id (n + 1) (log ++ [e]) := by
  intro a b hl hb
  rcases suffix_concat hl with rfl | ⟨b', rfl, hold⟩
  · exact Nat.zero_le _
  rw [List.countP_append, List.countP_singleton]
  have hb' := h a b' hold fun x hx => hb x (List.mem_append_left _ hx)
  split <;> omega

theorem offered_decided (he : DecidedOn id e) : OfferedAtMost id n (log ++ [e]) := by
  intro a b hl hb
  rcases suffix_concat hl with rfl | ⟨b', rfl, hold⟩
  · exact Nat.zero_le _
  · exact absurd he (hb e (List.mem_append_right _ (List.mem_singleton_self _)))

/-- What one more event needs of the log before it. -/
def Fits (log : List SweepEvent) : SweepEvent → Prop
  | .sent _ g => Clean g.id log none ∧ OfferedAtMost g.id 2 log
  | .settled i r =>
    (∀ a g b, log = a ++ .sent i g :: b → ∀ e ∈ b, ¬ DecidedOn g.id e) ∧
    (∀ a b g, log = a ++ b ++ [.unsent i g] → (∀ e ∈ b, ¬ DecidedOn g.id e) →
      (b.countP (isSent g.id) : Int) = interactionDeliveryAttemptLimit → r.state = .open) ∧
    (r.state = .open → ∃ g reason delivery attempts observedAt, .sent i g ∈ log ∧ r.id = g.id ∧
      packetValue r "adapterDecisionFailure" = some (.obj (failureRecord g reason delivery attempts observedAt)))
  | .swept _ pending opens => ∀ i ∈ opens, pending = some i
  | _ => True

theorem logSound_nil : LogSound [] where
  kept := by
    intro a i g b r c h
    cases a <;> cases h
  once := by
    intro a i g b j g' c h
    cases a <;> cases h
  bounded := by
    intro id a b c h _
    obtain ⟨hab, -⟩ := List.append_eq_nil_iff.mp h.symm
    rw [(List.append_eq_nil_iff.mp hab).2, List.countP_nil]
    decide
  reopened := by
    intro a b i g r c h
    exact absurd (List.append_eq_nil_iff.mp h.symm).2 (List.cons_ne_nil _ _)
  recorded := fun _ _ h => absurd h List.not_mem_nil
  pending := fun _ _ _ h => absurd h List.not_mem_nil

theorem LogSound.concat (h : LogSound log) (he : Fits log e) : LogSound (log ++ [e]) where
  kept := by
    intro a i g b r c hl
    rcases concat_eq_append_cons hl with ⟨hb, -, -⟩ | ⟨b', hb, hold⟩
    · cases b <;> cases hb
    rcases concat_eq_append_cons hb.symm with ⟨-, rfl, rfl⟩ | ⟨c', -, rfl⟩
    · exact he.1 a g b hold
    · exact h.kept a i g b r c' hold
  once := by
    intro a i g b j g' c hl hid
    rcases concat_eq_append_cons hl with ⟨hb, -, -⟩ | ⟨b', hb, hold⟩
    · cases b <;> cases hb
    rcases concat_eq_append_cons hb.symm with ⟨-, rfl, rfl⟩ | ⟨c', -, rfl⟩
    · rcases he.1 a i g b hold hid.symm with hd | hu | hu
      · exact .inl (hid ▸ hd)
      · exact .inr hu
      · cases hu
    · exact h.once a i g b j g' c' hold hid
  bounded := by
    intro id a b c hl hb
    rcases suffix_concat hl with rfl | ⟨c', -, hold⟩
    · rcases suffix_concat (hl.trans (List.append_nil _)) with rfl | ⟨b', rfl, hold⟩
      · rw [List.countP_nil]
        decide
      have hb' : ∀ e ∈ b', ¬ DecidedOn id e := fun x hx => hb x (List.mem_append_left _ hx)
      rw [List.countP_append, List.countP_singleton]
      by_cases hs : isSent id e = true
      · cases e with
        | sent i g =>
          obtain rfl : g.id = id := of_decide_eq_true hs
          have hcount := he.2 a b' hold hb'
          rw [if_pos hs]
          exact Int.ofNat_le.mpr (Nat.succ_le_succ hcount)
        | _ => cases hs
      · rw [if_neg hs]
        exact h.bounded id a b' [] (by rw [hold, List.append_nil]) hb'
    · exact h.bounded id a b c' hold hb
  reopened := by
    intro a b i g r c hl hb hcount
    rcases concat_eq_append_cons hl with ⟨hc, -, -⟩ | ⟨c', hc, hold⟩
    · cases hc
    cases c' with
    | nil =>
      cases hc
      exact he.2.1 a b g hold hb hcount
    | cons x c' =>
      obtain ⟨rfl, -⟩ := List.cons.inj hc
      exact h.reopened a b i g r c' hold hb hcount
  recorded := by
    intro i r hm hr
    have hgrow : ∀ {g}, .sent i g ∈ log → .sent i g ∈ log ++ [e] := fun h => List.mem_append_left _ h
    rcases List.mem_append.mp hm with hm | hm
    · obtain ⟨g, reason, delivery, attempts, observedAt, hs, hrest⟩ := h.recorded i r hm hr
      exact ⟨g, reason, delivery, attempts, observedAt, hgrow hs, hrest⟩
    obtain rfl := List.mem_singleton.mp hm
    obtain ⟨g, reason, delivery, attempts, observedAt, hs, hrest⟩ := he.2.2 hr
    exact ⟨g, reason, delivery, attempts, observedAt, hgrow hs, hrest⟩
  pending := by
    intro sessionId pending opens hm
    rcases List.mem_append.mp hm with hm | hm
    · exact h.pending sessionId pending opens hm
    · obtain rfl := List.mem_singleton.mp hm
      exact he

end AgentsRemember.Hosted
