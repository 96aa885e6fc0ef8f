import AgentsRemember.Delivery.DrainSound

/-!
# What a landed row says

A row that landed was accepted by the session that it names, and its text went
to no session twice, where attempts and rebinds of one row work on the row as
the log has it, and a correlated row still resolves to the session that it was
last submitted to. A row is correlated with a request of its own id only; the
session that took the request is not on it.
-/

namespace AgentsRemember.Delivery

open Lib
open Inbox (OperatorInboxEntry InboxLog DeliveryAttempt)
open Catalog (Rows)

/-- A row that landed on a session was accepted by it, and one that is delivered to a session was submitted to it. -/
structure Truthful (l : Ledger) (id : String) (e : OperatorInboxEntry) : Prop where
  landed : e.state = .landed → ∀ session, e.deliveredToSession = some session → (session, id) ∈ l.accepted
  delivered : e.deliveryState = .delivered → ∀ session, e.deliveredToSession = some session → (session, id) ∈ l.tried

structure Accounted (s : Store) : Prop where
  truthful : ∀ id e, (Inbox.current s.log).get? id = some e → Truthful s.ledger id e
  /-- No row is submitted to one session twice. -/
  once : s.ledger.tried.Nodup

/-! ## The condition of a command -/

/-- Attempts and rebinds of one row do not overlap and find it as they read it; what is recorded under a request is
recorded for the session that it last went to; and no row goes back to a session that it was rebound from. -/
def careful (s : Store) : Command → Prop
  | .post _ entryId _ _ _ => entryId ≠ ""
  | .submit session id _ =>
    id ∉ s.ledger.unrecorded ∧ (session, id) ∉ s.ledger.left ∧
      ∀ e ∈ (Inbox.current s.log).get? id, e.adapterRequestId = none
  | .record read entry attempt _ _ _ =>
    entry = read ∧ (Inbox.current s.log).get? read.id = some read ∧
      (attempt.adapter.requestId.isSome = true → ∀ session ∈ attempt.deliveredToSession,
        s.ledger.lastTried read.id = some session)
  | .rebind entry _ _ => entry.id ∉ s.ledger.unrecorded ∧ (Inbox.current s.log).get? entry.id = some entry
  | _ => True

/-! ## What rows and submissions have in common -/

structure RowSound (l : Ledger) (id : String) (e : OperatorInboxEntry) : Prop extends Truthful l id e where
  named : e.id ≠ ""
  request : ∀ r, e.adapterRequestId = some r → r = e.id
  taken : e.adapterRequestId.isSome = true → e.adapterDeliveryState = some .accepted →
    ∀ session, l.lastTried id = some session → (session, id) ∈ l.accepted

structure Sound (s : Store) : Prop where
  rows : ∀ id e, (Inbox.current s.log).get? id = some e → RowSound s.ledger id e
  once : s.ledger.tried.Nodup
  /-- A session was rebound from, or is the last that the row went to, with the outcome open or on the row. -/
  held : ∀ session id, (session, id) ∈ s.ledger.tried → (session, id) ∈ s.ledger.left ∨
    s.ledger.lastTried id = some session ∧
      (id ∈ s.ledger.unrecorded ∨ ∃ e, (Inbox.current s.log).get? id = some e ∧ e.adapterRequestId.isSome = true)

structure Backed (s : Store) (read : OperatorInboxEntry) (attempt : DeliveryAttempt) : Prop where
  pending : read.terminal = false
  request : ∀ r, attempt.adapter.requestId = some r → r = read.id
  delivered : attempt.deliveryState = .delivered → attempt.adapter.requestId.isSome = true
  state : attempt.adapter.requestId.isSome = true → read.adapterRequestId.isSome = true ∨
    attempt.adapter.deliveryState.isSome = true
  accepted : attempt.adapter.deliveryState = some .accepted → attempt.adapter.requestId.isSome = true ∧
    ∃ session, attempt.deliveredToSession = some session ∧ ((session, read.id) ∈ s.ledger.accepted ∨
      read.adapterRequestId.isSome = true ∧ read.adapterDeliveryState = some .accepted)

def backed (s : Store) : Command → Prop
  | .record read _ attempt _ _ _ => Backed s read attempt
  | _ => True

def reliance (clock : Clock) : Rely Command Command.Answer Store Outside where
  exec := exec clock
  ext s s' := s.ledger.accepted ⊆ s'.ledger.accepted
  inv := Sound
  ok := backed

section
variable {clock : Clock} {s : Store} {l l' : Ledger} {id session : String} {e : OperatorInboxEntry}

theorem Ledger.mem_of_lastTried (h : l.lastTried id = some session) : (session, id) ∈ l.tried := by
  obtain ⟨p, hp, rfl⟩ := Option.map_eq_some_iff.mp h
  have hid : p.2 = id := by simpa using List.find?_some hp
  exact hid ▸ List.mem_of_find?_eq_some hp

theorem RowSound.mono (h : RowSound l id e) (hlast : l'.lastTried id = l.lastTried id) (haccepted : l.accepted ⊆ l'.accepted)
    (htried : l.tried ⊆ l'.tried) : RowSound l' id e :=
  { h with
    landed hl session hs := haccepted (h.landed hl session hs)
    delivered hd session hs := htried (h.delivered hd session hs)
    taken hr ha session hs := haccepted (h.taken hr ha session (hlast ▸ hs)) }

variable {reply : SubmitReply} {answer : Option Harness.ReconciliationResult} {now requestId : String}
  {read entry : OperatorInboxEntry} {attempt : DeliveryAttempt} {floor : Option Int} {a b : Option String}
  {outcome : DeliveryOutcome} {correlation : AdapterCorrelation} {landed atBoundary : Bool} {log : InboxDeliveryLog}
  {r : Harness.SubmissionReceipt} {target : Seat}

theorem Sound.submitted (h : Sound s) (hc : careful s (.submit session id "")) :
    Sound (s.submitted session id reply).2 := by
  obtain ⟨hrecorded, hleft, hrow⟩ := hc
  have hnew : (session, id) ∉ s.ledger.tried := by
    intro htried
    rcases h.held session id htried with hl | ⟨-, hu | ⟨e, he, hcorrelated⟩⟩
    · exact hleft hl
    · exact hrecorded hu
    · rw [hrow e he] at hcorrelated
      cases hcorrelated
  have hsound : ∀ l' : Ledger, l'.tried = (session, id) :: s.ledger.tried → l'.unrecorded = id :: s.ledger.unrecorded →
      l'.left = s.ledger.left → s.ledger.accepted ⊆ l'.accepted → Sound { s with ledger := l' } := by
    intro l' htried hunrecorded hleft' haccepted
    have hself : l'.lastTried id = some session := by simp [Ledger.lastTried, htried]
    have hother : ∀ id', id' ≠ id → l'.lastTried id' = s.ledger.lastTried id' := by
      intro id' hne
      rw [Ledger.lastTried, htried, List.find?_cons_of_neg (by simp [Ne.symm hne]), Ledger.lastTried]
    refine ⟨fun id' e he => ?_, ?_, fun session' id' hmem => ?_⟩
    · by_cases hid : id' = id
      · subst hid
        have hrow' := h.rows id' e he
        refine ⟨⟨fun hl x hx => haccepted (hrow'.landed hl x hx), fun hd x hx => ?_⟩, hrow'.named, hrow'.request, fun hr => ?_⟩
        · rw [htried]
          exact List.mem_cons_of_mem _ (hrow'.delivered hd x hx)
        · rw [hrow e he] at hr
          cases hr
      · exact (h.rows id' e he).mono (hother id' hid) haccepted fun p hp => htried ▸ List.mem_cons_of_mem _ hp
    · rw [htried]
      exact List.nodup_cons.mpr ⟨hnew, h.once⟩
    simp only [htried] at hmem
    rw [hleft', hunrecorded]
    rcases List.mem_cons.mp hmem with heq | hold
    · cases heq
      exact .inr ⟨hself, .inl List.mem_cons_self⟩
    by_cases hid : id' = id
    · subst hid
      rcases h.held session' id' hold with hl | ⟨-, hu | ⟨e, he, hcorrelated⟩⟩
      · exact .inl hl
      · exact absurd hu hrecorded
      · rw [hrow e he] at hcorrelated
        cases hcorrelated
    rcases h.held session' id' hold with hl | ⟨hlast, hu | hcorrelated⟩
    · exact .inl hl
    · exact .inr ⟨(hother id' hid).trans hlast, .inl (List.mem_cons_of_mem _ hu)⟩
    · exact .inr ⟨(hother id' hid).trans hlast, .inr hcorrelated⟩
  unfold Store.submitted
  dsimp only
  split
  · exact hsound _ rfl rfl rfl fun _ hp => hp
  · exact hsound _ rfl rfl rfl fun _ hp => hp
  split
  · exact hsound _ rfl rfl rfl fun _ hp => List.mem_cons_of_mem _ hp
  · exact hsound _ rfl rfl rfl fun _ hp => hp

theorem Sound.reconciled (h : Sound s) : Sound (s.reconciled session id answer).2 := by
  unfold Store.reconciled
  split
  · exact h
  split
  · exact h
  split
  · exact ⟨fun id e he => (h.rows id e he).mono rfl (fun _ hp => List.mem_cons_of_mem _ hp) fun _ hp => hp, h.once, h.held⟩
  · exact h

/-! ## Snapshots -/

theorem Sound.change (h : Sound s) {log : InboxLog} (l' : Ledger) (waiting : Dict String Waiting) (id : String)
    (hother : ∀ id', id' ≠ id → (Inbox.current log).get? id' = (Inbox.current s.log).get? id')
    (htried : l'.tried = s.ledger.tried) (haccepted : l'.accepted = s.ledger.accepted)
    (hrow : ∀ e, (Inbox.current log).get? id = some e → RowSound l' id e)
    (hheld : ∀ session id', (session, id') ∈ s.ledger.tried → (session, id') ∈ s.ledger.left ∨
      s.ledger.lastTried id' = some session ∧
        (id' ∈ s.ledger.unrecorded ∨ ∃ e, (Inbox.current s.log).get? id' = some e ∧ e.adapterRequestId.isSome = true) →
      (session, id') ∈ l'.left ∨ s.ledger.lastTried id' = some session ∧
        (id' ∈ l'.unrecorded ∨ ∃ e, (Inbox.current log).get? id' = some e ∧ e.adapterRequestId.isSome = true)) :
    Sound { s with log := log, ledger := l', waiting := waiting } := by
  have hlast : ∀ id', l'.lastTried id' = s.ledger.lastTried id' := fun id' => by rw [Ledger.lastTried, htried, Ledger.lastTried]
  refine ⟨fun id' e he => ?_, htried ▸ h.once, fun session id' hmem => ?_⟩
  · by_cases hid : id' = id
    · subst hid
      exact hrow e he
    · exact (h.rows id' e (hother id' hid ▸ he)).mono (hlast id') (fun _ hp => haccepted ▸ hp) fun _ hp => htried ▸ hp
  rw [hlast]
  have hmem : (session, id') ∈ s.ledger.tried := htried ▸ hmem
  exact hheld session id' hmem (h.held session id' hmem)

theorem Sound.posted (h : Sound s) {message : Inbox.InboxMessage} {entryId : String} {routing : Inbox.InboxRouting}
    {poster : Inbox.InboxPoster} (hid : entryId ≠ "") : Sound (s.posted message entryId now routing poster).2 := by
  unfold Store.posted
  split
  · exact h
  rename_i hfresh
  split
  · exact h
  rename_i entry hentry
  obtain ⟨rfl, hstate, hdelivery, hrequest⟩ : entry.id = entryId ∧ entry.state = .pending ∧
      entry.deliveryState = .queued ∧ entry.adapterRequestId = none := by
    unfold Inbox.createOperatorInboxEntry at hentry
    split at hentry
    · cases hentry
    · cases hentry
      exact ⟨rfl, rfl, rfl, rfl⟩
  have hnone : (Inbox.current s.log).get? entry.id = none := by
    refine (foldLog_eq_none ..).mpr fun r hr heq => hfresh (List.any_eq_true.mpr ⟨r, hr, decide_eq_true heq⟩)
  have hself : (Inbox.current (s.log ++ [entry])).get? entry.id = some entry := by
    rw [Inbox.current, Inbox.fold_concat, if_pos rfl]
    exact congrArg (fun old => some (supersede Inbox.dominates old entry)) hnone
  refine h.change s.ledger s.waiting entry.id (fun id' hne => get?_append (Ne.symm hne)) rfl rfl (fun e he => ?_)
    fun session id' _ hheld => ?_
  · obtain rfl := Option.some.inj (hself.symm.trans he)
    exact ⟨⟨by simp [hstate], by simp [hdelivery]⟩, hid, by simp [hrequest], by simp [hrequest]⟩
  rcases hheld with hl | ⟨hlast, hu | ⟨e, he, hcorrelated⟩⟩
  · exact .inl hl
  · exact .inr ⟨hlast, .inl hu⟩
  refine .inr ⟨hlast, .inr ⟨e, ?_, hcorrelated⟩⟩
  rw [get?_append fun heq => by rw [← heq, hnone] at he; cases he]
  exact he

structure Attempted (read : OperatorInboxEntry) (attempt : DeliveryAttempt) (u : OperatorInboxEntry) : Prop where
  id : u.id = read.id
  delivery : u.deliveryState = attempt.deliveryState
  session : u.deliveredToSession = attempt.deliveredToSession
  adapter : u.adapterDeliveryState = attempt.adapter.deliveryState.or read.adapterDeliveryState
  request : u.adapterRequestId = pyOr attempt.adapter.requestId read.adapterRequestId
  lands : u.state = .landed → attempt.adapter.deliveryState = some .accepted

theorem recordDelivery_attempted {log log' : InboxLog} (hread : (Inbox.current log).get? read.id = some read)
    (hp : read.terminal = false) (h : Inbox.recordDelivery clock log (some read) read.id attempt now floor = .ok log') :
    ∃ u, log' = log ++ [u] ∧ Attempted read attempt u := by
  simp only [Inbox.recordDelivery] at h
  split at h
  · rename_i hlands
    simp only [Inbox.deliveryLands, Bool.and_eq_true, decide_eq_true_eq] at hlands
    unfold Inbox.transition at h
    rw [hread] at h
    simp only [Inbox.Transition.apply, hp] at h
    cases h
    exact ⟨_, rfl, rfl, rfl, rfl, rfl, rfl, fun _ => hlands.1.2⟩
  split at h
  · cases h
  rename_i u hu
  cases h
  have hpending : read.state = .pending := by simpa [OperatorInboxEntry.terminal] using hp
  have hstate : u.state = .landed → attempt.adapter.deliveryState = some .accepted := fun hl => by
    rw [(Inbox.deliverySnapshot_spec hu).2, hpending] at hl
    cases hl
  unfold Inbox.deliverySnapshot at hu
  rw [if_neg (by simp [hp])] at hu
  split at hu
  · cases hu
  split at hu
  · cases hu
  · cases hu
    exact ⟨_, rfl, rfl, rfl, rfl, rfl, rfl, hstate⟩

theorem isSome_pyOr_right (h : b.isSome = true) : (pyOr a b).isSome = true := by
  unfold pyOr
  split
  · rename_i ht
    cases a with
    | none => simp [truthy] at ht
    | some x => rfl
  · exact h

theorem pyOr_cases {r : String} (h : pyOr a b = some r) : a = some r ∨ b = some r := by
  unfold pyOr at h
  split at h
  · exact .inl h
  · exact .inr h

theorem RowSound.attempted {u : OperatorInboxEntry} (h : RowSound s.ledger read.id read) (hb : Backed s read attempt)
    (hu : Attempted read attempt u)
    (hlast : attempt.adapter.requestId.isSome = true → ∀ session ∈ attempt.deliveredToSession,
      s.ledger.lastTried read.id = some session) : RowSound s.ledger read.id u := by
  have haccepted : attempt.adapter.deliveryState = some .accepted →
      ∃ session, attempt.deliveredToSession = some session ∧ s.ledger.lastTried read.id = some session ∧
        (session, read.id) ∈ s.ledger.accepted := by
    intro ha
    obtain ⟨hrequest, session, hsession, hevidence⟩ := hb.accepted ha
    have hlast := hlast hrequest session hsession
    refine ⟨session, hsession, hlast, ?_⟩
    rcases hevidence with hmem | ⟨hcorrelated, hstate⟩
    · exact hmem
    · exact h.taken hcorrelated hstate session hlast
  refine ⟨⟨fun hl session hs => ?_, fun hd session hs => ?_⟩, hu.id ▸ h.named, fun r hr => ?_, fun hr ha session hs => ?_⟩
  · obtain ⟨session', hsession, -, hmem⟩ := haccepted (hu.lands hl)
    obtain rfl := Option.some.inj (hsession.symm.trans (hu.session ▸ hs))
    exact hmem
  · exact Ledger.mem_of_lastTried (hlast (hb.delivered (hu.delivery ▸ hd)) session (hu.session ▸ hs))
  · rw [hu.id]
    rcases pyOr_cases (hu.request ▸ hr) with hr | hr
    · exact hb.request r hr
    · exact h.request r hr
  rw [hu.adapter] at ha
  rcases Option.or_eq_some_iff.mp ha with ha | ⟨hnone, ha⟩
  · obtain ⟨session', -, hlast, hmem⟩ := haccepted ha
    obtain rfl := Option.some.inj (hlast.symm.trans hs)
    exact hmem
  refine h.taken ?_ ha session hs
  by_cases hrequest : attempt.adapter.requestId.isSome = true
  · rcases hb.state hrequest with hcorrelated | hsome
    · exact hcorrelated
    · rw [hnone] at hsome
      cases hsome
  · rw [hu.request, Option.not_isSome_iff_eq_none.mp hrequest] at hr
    exact hr

theorem Sound.recorded (h : Sound s) {busy : Option String} (hb : Backed s read attempt)
    (hc : careful s (.record read entry attempt now floor busy)) :
    Sound (s.recorded clock entry attempt now floor busy).2 := by
  obtain ⟨rfl, hread, hlast⟩ := hc
  unfold Store.recorded
  split
  · exact h
  rename_i log hlog
  obtain ⟨u, rfl, hu⟩ := recordDelivery_attempted hread hb.pending hlog
  have hself : ∀ id, (Inbox.current (s.log ++ [u])).get? id = ((Inbox.current s.log).set entry.id u).get? id :=
    Inbox.fold_append_live hread hb.pending hu.id
  have hrow := h.rows entry.id entry hread
  have hcorrelated : attempt.adapter.requestId.isSome = true ∨ entry.adapterRequestId.isSome = true →
      u.adapterRequestId.isSome = true := by
    intro hsome
    rw [hu.request]
    rcases hsome with hsome | hsome
    · obtain ⟨r, hr⟩ := Option.isSome_iff_exists.mp hsome
      obtain rfl := hb.request r hr
      simp [pyOr, truthy, hr, hrow.named]
    · exact isSome_pyOr_right hsome
  have hother : ∀ id', id' ≠ entry.id → (Inbox.current (s.log ++ [u])).get? id' = (Inbox.current s.log).get? id' :=
    fun id' hne => (hself id').trans (Dict.get?_set_ne _ _ (Ne.symm hne))
  have hnew : (Inbox.current (s.log ++ [u])).get? entry.id = some u := (hself entry.id).trans (Dict.get?_set_self ..)
  refine h.change _ _ entry.id hother ?_ ?_ (fun e he => ?_) fun session id' _ hheld => ?_
  · split <;> rfl
  · split <;> rfl
  · obtain rfl := Option.some.inj (hnew.symm.trans he)
    refine (hrow.attempted hb hu hlast).mono ?_ ?_ ?_ <;> split <;> first | rfl | exact fun _ hp => hp
  rcases hheld with hl | ⟨hlastTried, hopen⟩
  · left
    split <;> exact hl
  refine .inr ⟨hlastTried, ?_⟩
  by_cases hid : id' = entry.id
  · subst hid
    rcases hopen with hu' | ⟨e, he, hc⟩
    · by_cases hrequest : attempt.adapter.requestId.isSome = true
      · exact .inr ⟨u, hnew, hcorrelated (.inl hrequest)⟩
      · rw [if_neg hrequest]
        exact .inl hu'
    · obtain rfl := Option.some.inj (hread.symm.trans he)
      exact .inr ⟨u, hnew, hcorrelated (.inr hc)⟩
  rcases hopen with hu' | ⟨e, he, hc⟩
  · left
    split
    · exact List.mem_filter.mpr ⟨hu', by simp [hid]⟩
    · exact hu'
  · exact .inr ⟨e, (hother id' hid).trans he, hc⟩

theorem Sound.rebound (h : Sound s) {owner : Inbox.InboxOwner} (hc : careful s (.rebind entry owner now)) :
    Sound (s.rebound entry owner now) := by
  obtain ⟨-, hread⟩ := hc
  have hleft : ∀ session id', (session, id') ∈ s.ledger.left →
      (session, id') ∈ (s.ledger.lastTried entry.id).toList.map (·, entry.id) ++ s.ledger.left :=
    fun _ _ hl => List.mem_append_right _ hl
  unfold Store.rebound
  split
  · exact h
  rename_i log hlog
  simp only [Inbox.rebindEntry] at hlog
  split at hlog
  · cases hlog
    refine h.change _ _ entry.id (fun _ _ => rfl) rfl rfl (fun e he => ?_) fun session id' _ hheld => ?_
    · exact (h.rows entry.id e he).mono rfl (fun _ hp => hp) fun _ hp => hp
    · exact hheld.imp_left (hleft session id')
  rename_i u hsnapshot
  cases hlog
  obtain ⟨hrow, hstate, hp⟩ := Inbox.rebindSnapshot_spec hsnapshot
  obtain ⟨hdelivery, hrequest⟩ : u.deliveryState = .queued ∧ u.adapterRequestId = none := by
    unfold Inbox.rebindSnapshot at hsnapshot
    rw [if_neg (by simp [hp])] at hsnapshot
    cases hsnapshot
    exact ⟨rfl, rfl⟩
  have hpending : u.state = .pending := hstate.trans (by simpa [OperatorInboxEntry.terminal] using hp)
  have hself : ∀ id, (Inbox.current (s.log ++ [u])).get? id = ((Inbox.current s.log).set entry.id u).get? id :=
    Inbox.fold_append_live hread hp hrow.id
  have hother : ∀ id', id' ≠ entry.id → (Inbox.current (s.log ++ [u])).get? id' = (Inbox.current s.log).get? id' :=
    fun id' hne => (hself id').trans (Dict.get?_set_ne _ _ (Ne.symm hne))
  refine h.change _ _ entry.id hother rfl rfl (fun e he => ?_) fun session id' _ hheld => ?_
  · obtain rfl := Option.some.inj (((hself entry.id).trans (Dict.get?_set_self ..)).symm.trans he)
    exact ⟨⟨by simp [hpending], by simp [hdelivery]⟩, hrow.id ▸ (h.rows entry.id entry hread).named, by simp [hrequest],
      by simp [hrequest]⟩
  rcases hheld with hl | ⟨hlast, hopen⟩
  · exact .inl (hleft session id' hl)
  by_cases hid : id' = entry.id
  · subst hid
    exact .inl (List.mem_append_left _ (by simp [hlast]))
  refine .inr ⟨hlast, hopen.imp_right fun hex => ?_⟩
  obtain ⟨e, he, hcorrelated⟩ := hex
  exact ⟨e, (hother id' hid).trans he, hcorrelated⟩

theorem accepted_grows (outside : Outside) (s : Store) (c : Command) :
    s.ledger.accepted ⊆ (exec clock outside s c).2.ledger.accepted := by
  cases c with
  | post message entryId now routing poster =>
    simp only [exec, Store.posted]
    split
    · exact fun _ hp => hp
    · split <;> exact fun _ hp => hp
  | submit session requestId text =>
    simp only [exec, Store.submitted]
    split
    · exact fun _ hp => hp
    · exact fun _ hp => hp
    dsimp only
    split
    · exact fun _ hp => List.mem_cons_of_mem _ hp
    · exact fun _ hp => hp
  | reconcile session requestId =>
    simp only [exec, Store.reconciled]
    split
    · exact fun _ hp => hp
    split
    · exact fun _ hp => hp
    split
    · exact fun _ hp => List.mem_cons_of_mem _ hp
    · exact fun _ hp => hp
  | record read entry attempt now floor busy =>
    simp only [exec, Store.recorded]
    split
    · exact fun _ hp => hp
    · dsimp only
      split <;> exact fun _ hp => hp
  | rebind entry owner now =>
    simp only [exec, Store.rebound]
    split <;> exact fun _ hp => hp
  | _ => exact fun _ hp => hp

theorem reliance_kept (clock : Clock) : (reliance clock).Kept careful where
  refl _ _ hp := hp
  trans _ _ _ h h' _ hp := h' (h hp)
  ext outside s c _ _ _ := accepted_grows outside s c
  inv outside s c h hb hc := by
    cases c with
    | catalog c => exact ⟨h.rows, h.once, h.held⟩
    | rows => exact h
    | briefGate session => exact h
    | current => exact h
    | post message entryId now routing poster => exact h.posted hc
    | submit session requestId text => exact h.submitted hc
    | reconcile session requestId => exact h.reconciled
    | record read entry attempt now floor busy => exact h.recorded hb hc
    | rebind entry owner now => exact h.rebound hc

/-! ## What an attempt may say -/

structure Fit (read : OperatorInboxEntry) : Prop where
  pending : read.terminal = false
  named : read.id ≠ ""
  request : ∀ r, read.adapterRequestId = some r → r = read.id

theorem Backed.mono {s' : Store} (h : Backed s read attempt) (hext : s.ledger.accepted ⊆ s'.ledger.accepted) :
    Backed s' read attempt :=
  { h with
    accepted ha := by
      obtain ⟨hr, session, hs, hevidence⟩ := h.accepted ha
      exact ⟨hr, session, hs, hevidence.imp_left fun hp => hext hp⟩ }

theorem refusal_backed (hread : Fit read) (target : Option Seat) (hd : outcome.deliveryState ≠ .delivered)
    (ha : outcome.adapterState ≠ some .accepted) : Backed s read (deliveryAttempt read target outcome {} false) where
  pending := hread.pending
  request r hr := (pyOr_cases hr).elim (hread.request r) (nomatch ·)
  delivered h := absurd h hd
  state h := by
    obtain ⟨r, hr⟩ := Option.isSome_iff_exists.mp h
    exact .inl ((pyOr_cases hr).elim (fun h => h ▸ rfl) (nomatch ·))
  accepted h := absurd h ha

theorem correlated_backed (hread : Fit read) (target : Seat) (hstate : outcome.adapterState.isSome = true)
    (hrequest : pyOr read.adapterRequestId correlation.requestId = some read.id)
    (haccepted : outcome.adapterState = some .accepted → (target.1, read.id) ∈ s.ledger.accepted ∨
      read.adapterRequestId.isSome = true ∧ read.adapterDeliveryState = some .accepted) :
    Backed s read (deliveryAttempt read (some target) outcome correlation landed) := by
  have hsome : (deliveryAttempt read (some target) outcome correlation landed).adapter.requestId.isSome = true :=
    Option.isSome_iff_exists.mpr ⟨read.id, hrequest⟩
  exact ⟨hread.pending, fun r hr => Option.some.inj (hr.symm.trans hrequest), fun _ => hsome, fun _ => .inr hstate,
    fun ha => ⟨hsome, target.1, rfl, haccepted ha⟩⟩

theorem pyOr_own (hread : Fit read) (hb : b = some read.id ∨ read.adapterRequestId.isSome = true) :
    pyOr read.adapterRequestId b = some read.id := by
  cases hr : read.adapterRequestId with
  | none =>
    rcases hb with hb | hb
    · exact hb
    · rw [hr] at hb
      cases hb
  | some r =>
    obtain rfl := hread.request r hr
    simp [pyOr, truthy, hread.named]

/-! ## The attempt's commands -/

theorem requireEntry_safe {P : Store → Prop} (hP : ∀ s s', s.ledger.accepted ⊆ s'.ledger.accepted → P s → P s')
    (log : InboxDeliveryLog) (h : P s) : (requireEntry log).Safe (reliance clock) (fun _ => P) s := by
  unfold requireEntry
  cases log.current with
  | some current =>
    dsimp only [pure, bind, Script.bind]
    split
    · exact trivial
    · exact h
  | none =>
    refine fun s' hext _ => ⟨trivial, fun _ => ?_⟩
    dsimp only [Script.bind]
    split
    · exact trivial
    · exact hP s s' hext h

theorem record_safe {target : Option Seat} {busy : Bool}
    (h : Backed s log.entry (deliveryAttempt log.entry target outcome correlation landed)) :
    (record log target outcome correlation landed busy).Safe (reliance clock) (fun _ _ => True) s := by
  unfold record
  refine Script.Safe.bind _ ((requireEntry_safe (fun _ _ hext hb => Backed.mono hb hext) log h).weaken (fun entry s' hb => ?_) _)
  refine Script.Safe.bind (perform _) fun s'' hext _ => ⟨hb.mono hext, fun outside => ?_⟩
  simp only [Script.Safe]
  split <;> exact trivial

theorem reconciled_answer {r : Harness.ReconciliationResult} (h : (s.reconciled session requestId answer).1 = some r) :
    r.requestId = requestId ∧
      (r.state = .accepted → (session, requestId) ∈ (s.reconciled session requestId answer).2.ledger.accepted) := by
  unfold Store.reconciled at h ⊢
  cases answer with
  | none => cases h
  | some a =>
    dsimp only at h ⊢
    by_cases hstate : a.state ≠ .accepted
    · rw [if_pos hstate] at h
      cases h
      exact ⟨rfl, fun ha => absurd ha hstate⟩
    rw [if_neg hstate] at h ⊢
    by_cases hsent : (session, requestId) ∈ s.ledger.sent
    · rw [if_pos hsent] at h ⊢
      cases h
      exact ⟨rfl, fun _ => List.mem_cons_self⟩
    · rw [if_neg hsent] at h
      cases h

theorem submitted_answer (h : (s.submitted session requestId reply).1 = .receipt r) : r.requestId = requestId ∧
      (r.acceptance = .immediate → (session, requestId) ∈ (s.submitted session requestId reply).2.ledger.accepted) := by
  unfold Store.submitted at h ⊢
  cases reply with
  | receipt r' =>
    cases h
    refine ⟨rfl, fun ha => ?_⟩
    dsimp only at ha ⊢
    rw [if_pos ha]
    exact List.mem_cons_self
  | failed error sent => cases sent <;> cases h

theorem recordReconciliation_safe {reconciliation : Option Harness.ReconciliationResult} {detail : String}
    (hread : Fit log.entry) (hanswer : ∀ r, reconciliation = some r → r.requestId = log.entry.id ∧
      (r.state = .accepted → (target.1, log.entry.id) ∈ s.ledger.accepted)) :
    (recordReconciliation log target reconciliation detail atBoundary).Safe (reliance clock) (fun _ _ => True) s := by
  have hown : pyOr log.entry.adapterRequestId (reconciledRequest log.entry reconciliation) = some log.entry.id := by
    refine pyOr_own hread (.inl ?_)
    cases reconciliation with
    | none => exact pyOr_own hread (.inl rfl)
    | some r => exact congrArg some (hanswer r rfl).1
  refine record_safe (correlated_backed hread target rfl hown fun ha => .inl ?_)
  cases reconciliation with
  | none => cases ha
  | some r =>
    obtain ⟨-, haccepted⟩ := hanswer r rfl
    cases hstate : r.state with
    | accepted => exact haccepted hstate
    | _ => simp [hstate] at ha

theorem redelivery_safe (hread : Fit log.entry) (hrequest : log.entry.adapterRequestId = some requestId) :
    (redelivery log target requestId atBoundary).Safe (reliance clock) (fun _ _ => True) s := by
  have hcorrelated : log.entry.adapterRequestId.isSome = true := by rw [hrequest]; rfl
  unfold redelivery
  split
  · rename_i state hstate
    have hrow := (Option.filter_eq_some_iff.mp hstate).1
    exact record_safe (correlated_backed hread target rfl (pyOr_own hread (.inr hcorrelated)) fun ha =>
      .inr ⟨hcorrelated, hrow.trans ha⟩)
  obtain rfl := hread.request requestId hrequest
  refine fun s' _ _ => ⟨trivial, fun outside => recordReconciliation_safe hread fun r hr => ?_⟩
  exact reconciled_answer hr

theorem recordReceipt_safe (hread : Fit log.entry) (hrequest : r.requestId = log.entry.id)
    (haccepted : r.acceptance = .immediate → (target.1, log.entry.id) ∈ s.ledger.accepted) :
    (recordReceipt log target r atBoundary).Safe (reliance clock) (fun _ _ => True) s := by
  refine record_safe (correlated_backed hread target rfl (pyOr_own hread (.inl (congrArg some hrequest))) fun ha => .inl ?_)
  refine haccepted ?_
  unfold receiptState at ha
  cases hacceptance : r.acceptance with
  | immediate => rfl
  | _ => simp [hacceptance] at ha

/-- A refusal says neither delivered nor accepted. -/
def Refusing (refusal : Option Refusal) : Prop :=
  ∀ r ∈ refusal, r.outcome.deliveryState ≠ .delivered ∧ r.outcome.adapterState ≠ some .accepted

theorem hostRefusal_refusing (target : Seat) (admission : DeliveryAdmission) (hosted : Bool) :
    Refusing (hostRefusal target admission hosted) := by
  unfold hostRefusal
  intro r hr
  repeat' split at hr
  all_goals cases hr
  all_goals exact ⟨nofun, nofun⟩

theorem gateRefusal_refusing (entry : OperatorInboxEntry) (target : Seat) (admission : DeliveryAdmission)
    (closed : Option String) : Refusing (gateRefusal entry target admission closed) := by
  unfold gateRefusal
  intro r hr
  repeat' split at hr
  all_goals cases hr
  all_goals exact ⟨nofun, nofun⟩

theorem deliveryRefusal_safe (entry : OperatorInboxEntry) (target : Seat) (admission : DeliveryAdmission) :
    (deliveryRefusal entry target admission).Safe (reliance clock) (fun refusal _ => Refusing refusal) s := by
  unfold deliveryRefusal
  refine Script.Safe.bind (perform _) fun s' _ _ => ⟨trivial, fun outside => ?_⟩
  simp only [Script.Safe]
  split
  · rename_i refusal hrefusal
    exact hrefusal ▸ hostRefusal_refusing target admission _
  split
  · exact fun s'' _ _ => ⟨trivial, fun outside => gateRefusal_refusing entry target admission _⟩
  · exact gateRefusal_refusing entry target admission none

theorem deliverInboxEntry_safe (hread : Fit log.entry) (admission : DeliveryAdmission) :
    (deliverInboxEntry log admission).Safe (reliance clock) (fun _ _ => True) s := by
  unfold deliverInboxEntry
  refine Script.Safe.bind (perform _) fun s' _ _ => ⟨trivial, fun outside => ?_⟩
  simp only [Script.Safe]
  split
  · exact trivial
  · exact record_safe (refusal_backed hread none nofun nofun)
  rename_i target _
  refine Script.Safe.bind _ ((deliveryRefusal_safe log.entry target admission).weaken (fun refusal s'' hrefusal => ?_) _)
  cases refusal with
  | some refusal => exact record_safe (refusal_backed hread (some target) (hrefusal refusal rfl).1 (hrefusal refusal rfl).2)
  | none =>
    dsimp only
    split
    · rename_i requestId hrequest
      exact redelivery_safe hread hrequest
    refine Script.Safe.bind (perform _) fun s₁ _ _ => ⟨trivial, fun outside => ?_⟩
    simp only [Script.Safe]
    split
    · rename_i r hr
      obtain ⟨hrequest, haccepted⟩ := submitted_answer hr
      exact recordReceipt_safe hread hrequest haccepted
    · refine Script.Safe.bind (perform _) fun s₂ _ _ => ⟨trivial, fun outside => ?_⟩
      exact recordReconciliation_safe hread fun r hr => reconciled_answer hr


theorem Sound.fit (h : Sound s) (he : (Inbox.current s.log).get? id = some e) (hp : e.terminal = false) : Fit e :=
  ⟨hp, (h.rows id e he).named, (h.rows id e he).request⟩

theorem job_safe (c : Catalog.Config) (call : Call) (s : Store) : Job.Safe (reliance c.clock) (call.job c) s := by
  cases call with
  | catalog call => exact Job.safe_embed (fun _ _ => trivial) _
  | post message entryId now routing poster =>
    exact Job.safe_plain (Script.Safe.bind (perform _) fun s' _ _ => ⟨trivial, fun _ => trivial⟩)
  | deliver entryId at' seconds admission folded =>
    refine Job.safe_plain (Script.Safe.bind (perform _) fun s' _ hinv => ⟨trivial, fun _ => ?_⟩)
    simp only [Script.Safe]
    split
    · exact trivial
    rename_i entry hentry
    split
    · exact trivial
    rename_i hp
    have hread : Fit entry := Sound.fit hinv hentry (by simpa using hp)
    exact Script.Safe.bind _ ((@deliverInboxEntry_safe _ s' ⟨entry, at', _, seconds⟩ hread admission).weaken
      (fun _ _ _ => trivial) _)
  | rebind entryId at' owner =>
    refine Job.safe_plain (Script.Safe.bind (perform _) fun s' _ _ => ⟨trivial, fun _ => ?_⟩)
    simp only [Script.Safe]
    split
    · exact trivial
    split
    · exact trivial
    · exact fun s'' _ _ => ⟨trivial, fun _ => trivial⟩

theorem sound_started (rows : Rows) : Sound (startedStore rows []) :=
  ⟨fun _ _ h => (nomatch h), List.nodup_nil, fun _ _ h => (nomatch h)⟩

end

/-- In every state of every run whose commands meet the condition, landed and delivered rows say what is so, and no row
went to a session twice. -/
def SubmissionsAccounted (c : Catalog.Config) (rows : Rows) (ok : Store → Command → Prop) : Prop :=
  ∀ w, Reachable (deliverySystem c rows []) (Pool.Issues (exec c.clock) ok) w → Accounted w.store

/-- **A landed message was accepted by the session it names**, and went to no session twice. -/
theorem submissions_accounted (c : Catalog.Config) (rows : Rows) : SubmissionsAccounted c rows careful := by
  intro w hw
  have h : Sound w.store :=
    Pool.steps_safe (reliance_kept c.clock) (fun call s _ => job_safe c call s) hw (sound_started rows)
  exact ⟨fun id e he => (h.rows id e he).toTruthful, h.once⟩

/-! ## A replacement that never saw the message -/

deriving instance DecidableEq for OperatorInboxEntry

instance (s : Store) : (c : Command) → Decidable (careful s c)
  | .post _ entryId _ _ _ => inferInstanceAs (Decidable (entryId ≠ ""))
  | .submit session id _ => inferInstanceAs (Decidable (id ∉ s.ledger.unrecorded ∧ (session, id) ∉ s.ledger.left ∧
      ∀ e ∈ (Inbox.current s.log).get? id, e.adapterRequestId = none))
  | .record read entry attempt _ _ _ => inferInstanceAs (Decidable (entry = read ∧
      (Inbox.current s.log).get? read.id = some read ∧ (attempt.adapter.requestId.isSome = true →
        ∀ session ∈ attempt.deliveredToSession, s.ledger.lastTried read.id = some session)))
  | .rebind entry _ _ => inferInstanceAs (Decidable (entry.id ∉ s.ledger.unrecorded ∧
      (Inbox.current s.log).get? entry.id = some entry))
  | .catalog _ | .rows | .briefGate _ | .current | .reconcile .. => .isTrue trivial

def workerAndReplacement : Rows :=
  (Dict.empty.set "s1" busyRow).set "s2"
    { busyRow with
      taskDocumentRef := none
      replacementForTaskDocumentRef := some Catalog.workerSeat
      turnState := some .turnEnded }

def taking : Outside where
  catalog := Catalog.calm
  briefGate _ := none
  submit _ := .receipt
    { requestId := ""
      acceptance := .immediate
      submittedAt := "2026-08-01T10:00:00+00:00" }
  reconcile _ := none

def instruct : Call :=
  .post { ask := "continue", response := "" } "m1" "2026-08-01T09:30:00+00:00"
    ⟨{ taskDocumentRef := some Catalog.workerSeat, recipientRole := some .worker }, {}⟩ ⟨"manager", .chat, none, none⟩

def deliveredAround (written : Catalog.Call) : List (PoolAction Call Outside) :=
  [.start instruct, .move 0 fun _ => taking, .start (.deliver "m1" "2026-08-01T10:00:00+00:00" none {} true)] ++
    List.replicate 5 (.move 1 fun _ => taking) ++ [.start (.catalog written), .move 2 fun _ => taking,
      .start (.deliver "m1" "2026-08-01T10:30:00+00:00" none {} true)] ++ List.replicate 4 (.move 3 fun _ => taking)

def replacedSystem : System World (PoolAction Call Outside) := deliverySystem Catalog.plainConfig workerAndReplacement []

def carefulStep (w : World) (a : PoolAction Call Outside) : Prop := w.Issues (exec Catalog.plainConfig.clock) careful a

instance (w : World) (a : PoolAction Call Outside) : Decidable (carefulStep w a) := inferInstanceAs (Decidable (Pool.Issues ..))

def settledWorld : World :=
  (checkedRun replacedSystem carefulStep replacedSystem.init
    (deliveredAround (.recordTurnState "s1" .turnEnded "2026-08-01T10:20:00+00:00"))).get (by decide +kernel)

def replacedWorld : World :=
  (runFrom replacedSystem replacedSystem.init (deliveredAround (.markExited "s1"))).get (by decide +kernel)

def landedRow (s : Store) (h : ((Inbox.current s.log).get? "m1").isSome) : OperatorInboxEntry := ((Inbox.current s.log).get? "m1").get h

/-- The message lands on the worker that took it. -/
theorem submissions_accounted_settled :
    (landedRow settledWorld.store (by decide +kernel)).state = .landed ∧
      Truthful settledWorld.store.ledger "m1" (landedRow settledWorld.store (by decide +kernel)) :=
  ⟨by decide +kernel, (submissions_accounted Catalog.plainConfig workerAndReplacement settledWorld
    (steps_of_checkedRun (Option.some_get _).symm)).truthful "m1" _ (Option.some_get _).symm⟩

/-- It lands on the replacement, which was sent nothing. -/
theorem landed_unseen : ¬ ∀ c rows, SubmissionsAccounted c rows fun _ _ => True := by
  intro h
  have hreachable : Reachable replacedSystem (Pool.Issues (exec Catalog.plainConfig.clock) fun _ _ => True) replacedWorld :=
    steps_of_runFrom (fun i _ w => Pool.issues_of_forall (fun _ _ => trivial) w i) (Option.some_get _).symm
  have htruthful := (h Catalog.plainConfig workerAndReplacement replacedWorld hreachable).truthful "m1"
    (landedRow replacedWorld.store (by decide +kernel)) (Option.some_get _).symm
  have haccepted : ("s2", "m1") ∈ replacedWorld.store.ledger.accepted :=
    htruthful.landed (by decide +kernel) "s2" (by decide +kernel)
  exact absurd haccepted (by decide +kernel)

end AgentsRemember.Delivery
