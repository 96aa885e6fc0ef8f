import AgentsRemember.Observer.OpSound

/-!
# Owner and reducer

A session holds its lifecycle in memory while the reducer folds the log. They
agree as long as nobody removes the log of a lifecycle that is held, and a
session only adopts a lifecycle that no other session holds and whose log is
there and anchored where the contract says. The other operations keep both in
step by themselves.
-/

namespace AgentsRemember.Observer

namespace Ambient

open Lib Lib.JsonText Logs

/-! ## Logs -/

structure Opens (id : String) (l : Log) : Prop where
  plain : ∀ e ∈ l.events, Observer.Plain e
  beat : ∀ e, l.heartbeat = some e → e.kind = heartbeatKind ∧ Observer.Plain e
  head : ∃ e es, l.events = e :: es ∧ e.kind = "lifecycle.started" ∧ e.lifecycleId = some id ∧ e.enclosure = none

variable {id : String} {l : Log} {e : Event} {c : LifecycleState}

theorem Opens.ne_nil (h : Opens id l) : l.events ≠ [] := by
  obtain ⟨e, es, he, -⟩ := h.head
  rw [he]
  exact List.cons_ne_nil e es

theorem Opens.ne_empty (h : Opens id l) : l ≠ emptyLog := by
  rintro rfl
  exact h.ne_nil rfl

theorem Opens.append (h : Opens id l) (he : Observer.Plain e) : Opens id (l.append e) := by
  unfold Log.append
  by_cases hk : e.kind = heartbeatKind
  · rw [if_pos hk]
    refine ⟨h.plain, fun x hx => ?_, h.head⟩
    rw [Option.some.injEq] at hx
    subst hx
    exact ⟨hk, he⟩
  rw [if_neg hk]
  obtain ⟨s, es, hs, hhead⟩ := h.head
  refine ⟨fun x hx => ?_, h.beat, s, es ++ [e], by rw [hs, List.cons_append], hhead⟩
  rcases List.mem_append.mp hx with hx | hx
  · exact h.plain x hx
  · rw [List.mem_singleton.mp hx]
    exact he

theorem view_append (h : Opens id l) {e : Emission} {v' : View} (hm : e.Moves (logView l.events) v') (eid ts : String) :
    logView (l.append (e.event eid ts)).events = v' := by
  unfold Log.append
  rcases hm eid ts with ⟨hk, hv⟩ | ⟨hk, hv⟩
  · rw [if_pos (show (e.event eid ts).kind = heartbeatKind from hk)]
    exact hv.symm
  rw [if_neg (show (e.event eid ts).kind ≠ heartbeatKind from hk)]
  rw [logView_append h.ne_nil]
  exact hv.symm

attribute [local simp] heartbeatKind

theorem applyView_heartbeat (v : View) (hk : e.kind = heartbeatKind) : applyView v e = v := by
  unfold applyView
  rw [hk]
  simp

theorem Opens.read (h : Opens id l) :
    l.read ≠ [] ∧ l.read.head? = l.events.head? ∧ (∀ e ∈ l.read, Observer.Plain e) ∧ logView l.read = logView l.events := by
  have hlines : l.read = l.events ∨ ∃ e, l.heartbeat = some e ∧ l.read = l.events ++ [e] := by
    unfold Log.read withHeartbeat
    split
    · exact .inl rfl
    rename_i e he
    split
    · exact .inl rfl
    · exact .inr ⟨e, he, rfl⟩
  rcases hlines with hr | ⟨e, he, hr⟩
  · rw [hr]
    exact ⟨h.ne_nil, rfl, h.plain, rfl⟩
  obtain ⟨hk, hplain⟩ := h.beat e he
  obtain ⟨s, es, hs, -⟩ := h.head
  rw [hr]
  refine ⟨List.append_ne_nil_of_left_ne_nil h.ne_nil _, by rw [hs]; rfl, fun x hx => ?_, ?_⟩
  · rcases List.mem_append.mp hx with hx | hx
    · exact h.plain x hx
    · rw [List.mem_singleton.mp hx]
      exact hplain
  · rw [logView_append h.ne_nil, applyView_heartbeat _ hk]

theorem started_first (hencl : c.enclosure = none) (eid ts : String) :
    Opens c.id (emptyLog.append ((started c).event eid ts)) := by
  have hk : ((started c).event eid ts).kind ≠ heartbeatKind := by simp [started, Emission.event]
  unfold Log.append
  rw [if_neg hk]
  have hhead : ((started c).event eid ts).lifecycleId = some c.id ∧ ((started c).event eid ts).enclosure = none :=
    ⟨rfl, hencl⟩
  refine ⟨fun x hx => ?_, fun e he => by simp [emptyLog] at he, _, [], rfl, rfl, hhead⟩
  rw [List.mem_singleton.mp hx]
  exact (started_plain c).event eid ts

theorem started_view (hstate : c.state = .running) (hencl : c.enclosure = none) (eid ts : String) :
    logView (emptyLog.append ((started c).event eid ts)).events = c.view := by
  have hk : ((started c).event eid ts).kind ≠ heartbeatKind := by simp [started, Emission.event]
  unfold Log.append
  rw [if_neg hk]
  simp [emptyLog, logView, seedView, started, Emission.event, field, Dict.lookupIn, truth, LifecycleState.view, hstate, hencl]

theorem adopted_view {enclosure : String} (h : Opens id l) (ha : anchorOf l.events = some enclosure) {e : Emission}
    (hk : e.kind = "lifecycle.resumed") (eid ts : String) :
    logView (l.append (e.event eid ts)).events = ⟨.running, false, some enclosure⟩ := by
  obtain ⟨s, es, hs, hkind, -, hencl⟩ := h.head
  obtain ⟨henc, hfleet⟩ := logView_anchor hkind hencl es
  rw [← hs, ha] at henc hfleet
  apply view_append h
  intro eid ts
  have hke : (e.event eid ts).kind = "lifecycle.resumed" := hk
  refine .inr ⟨by simp [hk], ?_⟩
  unfold applyView
  rw [hke]
  simp [henc, hfleet rfl]

section
variable {factory : IdFactory} {ts : String}

variable {id : String}

attribute [local simp] emitAll

theorem emitAll_other : ∀ {es : List Emission} {n : Nat} {logs : String → Log}, (∀ e ∈ es, e.holder.id ≠ id) →
    emitAll factory n ts es logs id = logs id
  | [], _, _, _ => rfl
  | e :: es, n, logs, h => by
    obtain ⟨he, hes⟩ := List.forall_mem_cons.mp h
    rw [emitAll, emitAll_other hes, Function.update_of_ne he.symm]

theorem emitAll_opens :
    ∀ {es : List Emission} {n : Nat} {logs : String → Log}, (∀ e ∈ es, e.Plain) → Opens id (logs id) →
    Opens id (emitAll factory n ts es logs id)
  | [], _, _, _, h => h
  | e :: es, n, logs, hes, h => by
    obtain ⟨hplain, hrest⟩ := List.forall_mem_cons.mp hes
    rw [emitAll]
    apply emitAll_opens hrest
    by_cases hid : id = e.holder.id
    · subst hid
      rw [Function.update_self]
      exact h.append (hplain.event _ _)
    · rw [Function.update_of_ne hid]
      exact h

theorem emitAll_append (e : Emission) : ∀ (es : List Emission) (n : Nat) (logs : String → Log),
    emitAll factory n ts (es ++ [e]) logs = Function.update (emitAll factory n ts es logs) e.holder.id
      ((emitAll factory n ts es logs e.holder.id).append (e.event (factory.mint (n + es.length)) ts))
  | [], _, _ => rfl
  | x :: es, n, logs => by
    rw [List.cons_append, emitAll, emitAll_append e es, emitAll, List.length_cons, Nat.add_right_comm, Nat.add_assoc]

end

/-! ## The invariant -/

section
variable (factory : IdFactory)

structure Inv (w : World) : Prop where
  sound : ∀ id, w.logs id ≠ emptyLog → Opens id (w.logs id) ∧ ∃ k < w.minted, factory.mint k = id
  held : ∀ s c, (w.sessions s).current = some c → w.logs c.id ≠ emptyLog ∧ logView (w.logs c.id).events = c.view
  apart : ∀ s t c d, (w.sessions s).current = some c → (w.sessions t).current = some d → c.id = d.id → s = t

/-- What an allowed action respects: a session adopts a lifecycle that is free, logged and anchored there, and no removal takes the
log of a lifecycle that is held. -/
def Respects (w : World) : Action → Prop
  | .act s op _ => ∀ id enclosure, op.adopted = some (id, enclosure) → (∀ c, (w.sessions s).current = some c → c.id ≠ id) →
      (∀ t c, (w.sessions t).current = some c → c.id ≠ id) ∧ anchorOf (w.logs id).events = some enclosure
  | .prune protectedIds entries now => ∀ s c, (w.sessions s).current = some c →
      c.id ∈ protectedIds ∨ c.id ∉ entries ∨ w.isDormant now c.id = false
  | .reap s ttl entries now => ∀ t c, t ≠ s → (w.sessions t).current = some c →
      c.id ∉ entries ∨ isDormantFleeting (w.logs c.id).read ttl now = false

variable {factory}

variable {w : World} {s : Nat} {c : LifecycleState}

theorem Inv.opens (h : Inv factory w) (hc : (w.sessions s).current = some c) :
    Opens c.id (w.logs c.id) := (h.sound c.id (h.held s c hc).1).1

theorem inv_session (h : Inv factory w) {logs : String → Log} {session : Session} {minted : Nat}
    (hsound : ∀ id, logs id ≠ emptyLog → Opens id (logs id) ∧ ∃ k < minted, factory.mint k = id)
    (hothers : ∀ t c, t ≠ s → (w.sessions t).current = some c → logs c.id = w.logs c.id)
    (hown : ∀ c, session.current = some c → logs c.id ≠ emptyLog ∧ logView (logs c.id).events = c.view ∧
      ∀ t d, t ≠ s → (w.sessions t).current = some d → d.id ≠ c.id) :
    Inv factory ⟨logs, Function.update w.sessions s session, minted⟩ := by
  refine ⟨hsound, fun t c hc => ?_, fun t u c d hc hd hid => ?_⟩
  · dsimp only at hc ⊢
    by_cases ht : t = s
    · subst ht
      rw [Function.update_self] at hc
      exact ⟨(hown c hc).1, (hown c hc).2.1⟩
    rw [Function.update_of_ne ht] at hc
    rw [hothers t c ht hc]
    exact h.held t c hc
  dsimp only at hc hd
  by_cases ht : t = s
  · by_cases hu : u = s
    · rw [ht, hu]
    rw [ht, Function.update_self] at hc
    rw [Function.update_of_ne hu] at hd
    exact absurd hid.symm ((hown c hc).2.2 u d hu hd)
  by_cases hu : u = s
  · rw [hu, Function.update_self] at hd
    rw [Function.update_of_ne ht] at hc
    exact absurd hid ((hown d hd).2.2 t c ht hc)
  rw [Function.update_of_ne ht] at hc
  rw [Function.update_of_ne hu] at hd
  exact h.apart t u c d hc hd hid

theorem Inv.others (h : Inv factory w) (hc : (w.sessions s).current = some c) :
    ∀ t d, t ≠ s → (w.sessions t).current = some d → d.id ≠ c.id := fun t d ht hd hid => ht (h.apart t s d c hd hc hid)

section
variable {w : World} {s : Nat} {es : List Emission} (hes : Leaving (w.sessions s) es)
include hes

theorem leaving_sound (h : Inv factory w) (n : Nat) (ts : String) (id : String) (hne : emitAll factory n ts es w.logs id ≠ emptyLog) :
    Opens id (emitAll factory n ts es w.logs id) ∧ ∃ k < w.minted, factory.mint k = id := by
  by_cases hown : ∃ c, (w.sessions s).current = some c ∧ c.id = id
  · obtain ⟨c, hc, rfl⟩ := hown
    exact ⟨emitAll_opens (fun e he => (hes e he).1) (h.opens hc), (h.sound c.id (h.held s c hc).1).2⟩
  have hother : ∀ e ∈ es, e.holder.id ≠ id := by
    intro e he hid
    obtain ⟨-, c, hc, hce⟩ := hes e he
    exact hown ⟨c, hc, hce.symm.trans hid⟩
  rw [emitAll_other hother] at hne ⊢
  exact h.sound id hne

theorem leaving_others (n : Nat) (ts : String) {id : String} (hid : ∀ c, (w.sessions s).current = some c → c.id ≠ id) :
    emitAll factory n ts es w.logs id = w.logs id := by
  apply emitAll_other
  intro e he heq
  obtain ⟨-, c, hc, hce⟩ := hes e he
  exact hid c hc (hce.symm.trans heq)

end

theorem act_inv {w' : World} (h : Inv factory w) {op : Op} {now : Stamp} (hok : Respects w (.act s op now))
    (hs : w.act factory s op now = some w') : Inv factory w' := by
  unfold World.act at hs
  obtain ⟨⟨current, es⟩, hr, rfl⟩ := Option.map_eq_some_iff.mp hs
  have hout := op_outcome hr
  dsimp only at hout ⊢
  generalize hsession : (if es.any (fun e => decide (e.kind ≠ heartbeatKind)) = true then some (isoformat now) else
    (w.sessions s).lastActivity) = last
  clear hsession
  have hmono : ∀ {k : Nat}, k < w.minted → k < w.minted + 1 + es.length := by omega
  cases hout with
  | quiet =>
    apply inv_session h
    · intro id hne
      obtain ⟨ho, k, hk, hm⟩ := h.sound id hne
      exact ⟨ho, k, hmono hk, hm⟩
    · intro t c ht hc
      rfl
    intro c hc
    obtain ⟨hne, hv⟩ := h.held s c hc
    exact ⟨hne, hv, h.others hc⟩
  | continues c c' e hc hid hholder hplain hmoves =>
    have hown : c.id = e.holder.id := by rw [hholder, hid]
    apply inv_session h
    · intro id hne
      rw [emitAll, emitAll] at hne ⊢
      by_cases he : id = e.holder.id
      · subst he
        rw [Function.update_self]
        have ho := h.opens hc
        rw [hown] at ho
        obtain ⟨-, k, hk, hm⟩ := h.sound _ (hown ▸ (h.held s c hc).1)
        exact ⟨ho.append (hplain.event _ _), k, hmono hk, hm⟩
      rw [Function.update_of_ne he] at hne ⊢
      obtain ⟨ho, k, hk, hm⟩ := h.sound id hne
      exact ⟨ho, k, hmono hk, hm⟩
    · intro t d ht hd
      rw [emitAll, emitAll, Function.update_of_ne]
      rw [← hown]
      exact h.others hc t d ht hd
    · intro d hd
      obtain rfl := Option.some.inj hd
      have ho := h.opens hc
      have hv := (h.held s c hc).2
      rw [← hv] at hmoves
      rw [emitAll, emitAll, ← hown, hid, Function.update_self]
      exact ⟨(ho.append (hplain.event _ _)).ne_empty, view_append ho hmoves _ _, h.others hc⟩
  | leaves es hes =>
    apply inv_session h
    · intro id hne
      obtain ⟨ho, k, hk, hm⟩ := leaving_sound hes h _ _ id hne
      exact ⟨ho, k, hmono hk, hm⟩
    · intro t d ht hd
      apply leaving_others hes
      intro c hc
      exact (h.others hc t d ht hd).symm
    · intro d hd
      cases hd
  | begins c es hes hid hstate hencl =>
    have hfree : w.logs c.id = emptyLog := by
      by_contra hne
      obtain ⟨-, k, hk, hm⟩ := h.sound c.id hne
      rw [hid] at hm
      exact absurd (factory.injective hm) (Nat.ne_of_lt hk)
    have hapart : ∀ t d, (w.sessions t).current = some d → d.id ≠ c.id := by
      intro t d hd heq
      apply (h.held t d hd).1
      rw [heq, hfree]
    have hleft : emitAll factory (w.minted + 1) (isoformat now) es w.logs c.id = emptyLog := by
      rw [leaving_others hes _ _ (hapart s), hfree]
    have hholder : (started c).holder = c := rfl
    apply inv_session h
    · intro id hne
      rw [emitAll_append, hholder, hleft] at hne ⊢
      by_cases he : id = c.id
      · subst he
        rw [Function.update_self]
        exact ⟨started_first hencl _ _, w.minted, by omega, hid.symm⟩
      rw [Function.update_of_ne he] at hne ⊢
      obtain ⟨ho, k, hk, hm⟩ := leaving_sound hes h _ _ id hne
      exact ⟨ho, k, hmono hk, hm⟩
    · intro t d ht hd
      rw [emitAll_append, hholder, Function.update_of_ne (hapart t d hd)]
      apply leaving_others hes
      intro c hc
      exact (h.others hc t d ht hd).symm
    · intro d hd
      obtain rfl := Option.some.inj hd
      rw [emitAll_append, hholder, hleft, Function.update_self]
      exact ⟨(started_first hencl _ _).ne_empty, started_view hstate hencl _ _, fun t d _ hd => hapart t d hd⟩
  | adopts c enclosure es e hes hop hnew hview hholder hplain hkind =>
    obtain ⟨hfree, hanchor⟩ := hok c.id enclosure hop hnew
    have hne : w.logs c.id ≠ emptyLog := by
      intro he
      rw [he] at hanchor
      cases hanchor
    obtain ⟨ho, k, hk, hm⟩ := h.sound c.id hne
    have hleft : emitAll factory (w.minted + 1) (isoformat now) es w.logs c.id = w.logs c.id := leaving_others hes _ _ hnew
    subst hholder
    apply inv_session h
    · intro id hne
      rw [emitAll_append, hleft] at hne ⊢
      by_cases he : id = e.holder.id
      · subst he
        rw [Function.update_self]
        exact ⟨ho.append (hplain.event _ _), k, hmono hk, hm⟩
      rw [Function.update_of_ne he] at hne ⊢
      obtain ⟨ho, k, hk, hm⟩ := leaving_sound hes h _ _ id hne
      exact ⟨ho, k, hmono hk, hm⟩
    · intro t d ht hd
      rw [emitAll_append, Function.update_of_ne (hfree t d hd)]
      apply leaving_others hes
      intro c hc
      exact (h.others hc t d ht hd).symm
    · intro d hd
      obtain rfl := Option.some.inj hd
      rw [emitAll_append, hleft, Function.update_self, hview]
      exact ⟨(ho.append (hplain.event _ _)).ne_empty, adopted_view ho hanchor hkind _ _, fun t d _ hd => hfree t d hd⟩

theorem remove_inv (h : Inv factory w) {p : String → Bool} {entries : List String}
    (hkeep : ∀ s c, (w.sessions s).current = some c → c.id ∉ entries ∨ p c.id = false) :
    Inv factory (w.remove p entries) := by
  refine ⟨fun id hne => ?_, fun s c hc => ?_, h.apart⟩
  · unfold World.remove at hne ⊢
    dsimp only at hne ⊢
    by_cases hr : id ∈ entries ∧ p id = true
    · rw [if_pos hr] at hne
      exact absurd rfl hne
    · rw [if_neg hr] at hne ⊢
      exact h.sound id hne
  have hno : ¬(c.id ∈ entries ∧ p c.id = true) := by
    rintro ⟨hin, hp⟩
    rcases hkeep s c hc with hk | hk
    · exact hk hin
    · rw [hk] at hp
      cases hp
  unfold World.remove
  dsimp only
  rw [if_neg hno]
  exact h.held s c hc

theorem step_inv (w : World) (a : Action) (w' : World) (h : Inv factory w) (hok : Respects w a)
    (hs : (ambientSystem factory).step w a = some w') : Inv factory w' := by
  cases a with
  | act s op now => exact act_inv h hok hs
  | prune protectedIds entries now =>
    obtain rfl := Option.some.inj hs
    apply remove_inv h
    intro s c hc
    rcases hok s c hc with hp | he | hd
    · right
      simp [hp]
    · exact .inl he
    · right
      rw [hd, Bool.and_false]
  | reap s ttl entries now =>
    obtain rfl := Option.some.inj hs
    apply remove_inv h
    intro t c hc
    by_cases ht : t = s
    · subst ht
      right
      simp [hc]
    rcases hok t c ht hc with he | hd
    · exact .inl he
    · right
      rw [hd, Bool.and_false]

theorem init_inv : Inv factory (ambientSystem factory).init := by
  refine ⟨fun id hne => absurd rfl hne, fun s c hc => ?_, fun s t c d hc => ?_⟩
  · cases hc
  · cases hc

end

/-- Every non-empty log begins with the start of its lifecycle. -/
def World.OpensWithStart (w : World) : Prop := ∀ id, (w.logs id).read ≠ [] →
  ((w.logs id).read.head?.map fun e => (e.kind, e.lifecycleId)) = some ("lifecycle.started", some id)

/-- The fold of the log of each held lifecycle has its owner's state, fleeting flag and enclosure. -/
def World.OwnersAgree (w : World) : Prop := ∀ s c, (w.sessions s).current = some c →
  ∃ p, projectWritten (w.logs c.id).read = some p ∧ p.view = c.view

/-- **No log stops the fold**, whether its lifecycle is held or not, and the projection has the newest enclosure of the log. -/
theorem logs_fold (factory : IdFactory) {w : World} (h : Reachable (ambientSystem factory) Respects w) (id : String)
    (hne : (w.logs id).read ≠ []) :
    (∃ k < w.minted, factory.mint k = id) ∧
      ∃ p, projectWritten (w.logs id).read = some p ∧ p.view.enclosure = anchorOf (w.logs id).events := by
  have hinv : Inv factory w := h.invariant init_inv step_inv
  have hlog : w.logs id ≠ emptyLog := fun he => hne (by rw [he]; rfl)
  obtain ⟨ho, hminted⟩ := hinv.sound id hlog
  obtain ⟨hread, -, hplain, hview⟩ := ho.read
  obtain ⟨p, hp, hv⟩ := projectWritten_view hread hplain
  obtain ⟨e, es, he, hk, -, hencl⟩ := ho.head
  refine ⟨hminted, p, hp, ?_⟩
  rw [hv, hview, he]
  exact (logView_anchor hk hencl es).1

/-! ## A session that was quiet for two hours -/

def unaryIds : IdFactory where
  mint n := String.ofList (List.replicate (n + 1) 'i')
  injective := by
    intro m n h
    have hlist := congrArg (fun s : String => s.toList.length) h
    simpa using hlist

def sessionStart : Stamp := ⟨1767225600000000, some 0⟩

def afterStart (w : World) (s : Nat) (now : Stamp) : World :=
  let c := freshState (unaryIds.mint w.minted) true INITIAL_PHASE (isoformat now)
  { logs := emitAll unaryIds (w.minted + 1) (isoformat now) [started c] w.logs
    sessions := Function.update w.sessions s ⟨some c, some (isoformat now)⟩
    minted := w.minted + 1 + 1 }

theorem start_step : (ambientSystem unaryIds).step (ambientSystem unaryIds).init (.act 0 (.start true INITIAL_PHASE) sessionStart) =
    some (afterStart (ambientSystem unaryIds).init 0 sessionStart) := by
  simp [ambientSystem, World.step, World.act, Op.run, afterStart, started]

theorem start_respects (w : World) (s : Nat) (fleeting : Bool) (p : Phase) (now : Stamp) : Respects w (.act s (.start fleeting p) now) := by
  intro id enclosure h
  simp [Op.adopted] at h

theorem logs_fold_started : ∃ p, projectWritten ((afterStart (ambientSystem unaryIds).init 0 sessionStart).logs "i").read = some p ∧
    p.view.enclosure = none := by
  have hlog : ((afterStart (ambientSystem unaryIds).init 0 sessionStart).logs "i").read.length = 1 := by decide +kernel
  obtain ⟨-, p, hp, hencl⟩ := logs_fold unaryIds (.tail .refl (start_respects _ _ _ _ _) start_step) "i"
    (List.ne_nil_of_length_eq_add_one hlog)
  exact ⟨p, hp, hencl.trans (by decide +kernel)⟩

def quietRun : List Action :=
  [.act 0 (.start true INITIAL_PHASE) sessionStart,
    .prune [] ["i"] (sessionStart.micros + seconds 7200),
    .act 0 (.block none) ⟨sessionStart.micros + seconds 7201, some 0⟩]

end Ambient

end AgentsRemember.Observer
