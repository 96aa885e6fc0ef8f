import AgentsRemember.Control.SettledSound

/-!
# A withdrawal and its recovery agree

For every request id the retained withdrawal and the retained recovery agree on
whether there is something to acknowledge, and what was disposed of is not
handed out again. Two things break it: a recovery evicted while it is not
acknowledged, and a reconcile that drives a settled record or one no longer
retained.
-/

namespace AgentsRemember.Control

open Lib
open Harness (SubmissionLifecycleState SubmissionSource ControlOperationKind AssetReference WithdrawalResult)

def Channel.retained (c : Channel) (wid : String) : Option WithdrawalRecord := (c.withdrawal wid).map Prod.snd

def CarriesText (k : RecoveryKey) : Event → Prop
  | .replied key response => key = k ∧ response.text ≠ ""
  | .fetched key recovery => key = k ∧ recovery.text ≠ ""
  | .projected .. => False
  | .disposed _ => False

/-- What the channel promises of its recoveries. -/
structure RecoveryAgrees (w : World) : Prop where
  state : ∀ wid r, w.channel.retained wid = some r →
    (r.recoveryState = .recoveryUnacknowledged ↔ ∃ R, w.channel.recoveries.get? wid = some R ∧ R.live = true)
  silent : ∀ k, NeverAfter (· = .disposed k) (CarriesText k) w.history

/-! ## One request id -/

/-- What is kept under request id `wid`: the withdrawal `W` and the recovery `R`. `D` are the recoveries disposed of so far,
`down` the rows reported as withdrawn. -/
structure Agrees (D : RecoveryKey → Prop) (down : List OperationIdentity) (wid : String) (W : Option WithdrawalRecord)
    (R : Option RecoveryRecord) : Prop where
  named : ∀ r, W = some r → r.withdrawRequestId = wid
  recoveryNamed : ∀ q, R = some q → q.withdrawRequestId = wid
  state : ∀ r, W = some r → (r.recoveryState = .recoveryUnacknowledged ↔ ∃ q, R = some q ∧ q.live = true)
  owned : ∀ q, R = some q → q.live = true → ∃ r, W = some r ∧ r.operation = q.operation
  emptied : ∀ q, R = some q → q.live = false → q.text = none ∧ D q.key
  noText : ∀ r, W = some r → r.recoveryState = .none → r.response.text = ""
  unsettled : ∀ r, W = some r → r.phase = .unknown → r.recoveryState = .none
  unspent : ∀ r, W = some r → r.recoveryState = .recoveryUnacknowledged ∨ r.phase = .unknown → ¬ D r.key
  down : ∀ q, R = some q → q.operation ∈ down

section
variable {D D' : RecoveryKey → Prop} {down down' : List OperationIdentity} {wid : String} {W : Option WithdrawalRecord}
  {R : Option RecoveryRecord} {r r' : WithdrawalRecord} {q : RecoveryRecord}

theorem agrees_none : Agrees D down wid none none := by
  constructor <;> (intro x hx; cases hx)

theorem Agrees.mono (h : Agrees D down wid W R) (hD : ∀ k, D k → D' k)
    (hD' : ∀ k, k.withdrawRequestId = wid → D' k → D k) (hdown : ∀ o ∈ down, o ∈ down') : Agrees D' down' wid W R :=
  { h with
    emptied := fun q hq hl => ⟨(h.emptied q hq hl).1, hD _ (h.emptied q hq hl).2⟩
    unspent := fun r hr hs hd => h.unspent r hr hs (hD' r.key (h.named r hr) hd)
    down := fun q hq => hdown _ (h.down q hq) }

theorem Agrees.unack_of_live (h : Agrees D down wid W (some q)) (hl : q.live = true) :
    ∃ r, W = some r ∧ r.recoveryState = .recoveryUnacknowledged ∧ r.key = q.key := by
  obtain ⟨r, hr, hop⟩ := h.owned q rfl hl
  refine ⟨r, hr, (h.state r hr).mpr ⟨q, rfl, hl⟩, ?_⟩
  rw [WithdrawalRecord.key, RecoveryRecord.key, h.named r hr, h.recoveryNamed q rfl, hop]

theorem Agrees.dispose {state : RecoveryState} (h : Agrees D down wid (some r) (some q)) (hl : q.live = true)
    (hu : Undriven r r') (hs : r'.recoveryState = state) (hstate : state = .acknowledged ∨ state = .expired)
    (hq : D' q.key) : Agrees D' down wid (some r') (some (q.dispose state)) := by
  have hdead : (q.dispose state).live = false := by
    rcases hstate with rfl | rfl <;> rfl
  have hname : r'.withdrawRequestId = r.withdrawRequestId := congrArg RecoveryKey.withdrawRequestId hu.key
  have hover : r'.recoveryState ≠ .recoveryUnacknowledged ∧ r'.recoveryState ≠ .none := by
    rcases hstate with rfl | rfl <;> simp [hs]
  -- the withdrawal of a live recovery is settled
  have hsettled : r'.phase ≠ .unknown := by
    intro hp
    have hnone := h.unsettled r rfl (hu.phase ▸ hp)
    rw [(h.state r rfl).mpr ⟨q, rfl, hl⟩] at hnone
    cases hnone
  constructor <;> rintro x ⟨⟩
  · exact hname.trans (h.named r rfl)
  · exact h.recoveryNamed q rfl
  · exact iff_of_false hover.1 (by simp [hdead])
  · exact fun hlive => absurd hlive (by simp [hdead])
  · exact fun _ => ⟨rfl, hq⟩
  · exact fun hn => absurd hn hover.2
  · exact fun hp => absurd hp hsettled
  · exact fun hun => absurd hun (not_or.mpr ⟨hover.1, hsettled⟩)
  · exact h.down q rfl

theorem agrees_offered (hr : r.withdrawRequestId = wid) (hk : r.key = q.key) (hu : r.recoveryState = .recoveryUnacknowledged)
    (hp : r.phase = .settled) (hl : q.live = true) (hD : ¬ D q.key) (hdown : q.operation ∈ down) :
    Agrees D down wid (some r) (some q) := by
  have hop : r.operation = q.operation := congrArg RecoveryKey.operation hk
  have hname : r.withdrawRequestId = q.withdrawRequestId := congrArg RecoveryKey.withdrawRequestId hk
  constructor <;> rintro x ⟨⟩
  · exact hr
  · rw [← hname, hr]
  · exact ⟨fun _ => ⟨q, rfl, hl⟩, fun _ => hu⟩
  · exact fun _ => ⟨r, rfl, hop⟩
  · exact fun hd => absurd (hl.symm.trans hd) (by simp)
  · exact fun hn => absurd (hu.symm.trans hn) (by simp)
  · exact fun hun => absurd (hp.symm.trans hun) (by simp)
  · exact fun _ => hk ▸ hD
  · exact hdown

theorem Agrees.replace (h : Agrees D down wid W R) (hR : ∀ q, R = some q → q.live = false)
    (hr : r.withdrawRequestId = wid) (hs : r.recoveryState = .none) (ht : r.response.text = "")
    (hp : r.phase = .unknown → ¬ D r.key) : Agrees D down wid (some r) R := by
  have hnone : ¬ ∃ q, R = some q ∧ q.live = true := by
    rintro ⟨q, hq, hl⟩
    rw [hR q hq] at hl
    cases hl
  have hun : r.recoveryState ≠ .recoveryUnacknowledged := by simp [hs]
  refine ⟨?_, h.recoveryNamed, ?_, fun q hq hl => absurd ⟨q, hq, hl⟩ hnone, h.emptied, ?_, ?_, ?_, h.down⟩ <;> rintro x ⟨⟩
  · exact hr
  · exact iff_of_false hun hnone
  · exact fun _ => ht
  · exact fun _ => hs
  · exact fun hopen => hp (hopen.resolve_left hun)

theorem Agrees.forgetWithdrawal (h : Agrees D down wid W R)
    (hW : ∀ r, W = some r → r.recoveryState ≠ .recoveryUnacknowledged) :
    Agrees D down wid none R := by
  have howned : ∀ q, R = some q → q.live = true → ∃ r : WithdrawalRecord, none = some r ∧ r.operation = q.operation := by
    intro q hq hl
    obtain ⟨r, hr, -⟩ := h.owned q hq hl
    exact absurd ((h.state r hr).mpr ⟨q, hq, hl⟩) (hW r hr)
  refine ⟨?_, h.recoveryNamed, ?_, howned, h.emptied, ?_, ?_, ?_, h.down⟩ <;> (intro x hx; cases hx)

theorem Agrees.forgetRecovery (h : Agrees D down wid W R) (hR : ∀ q, R = some q → q.live = false) :
    Agrees D down wid W none := by
  refine ⟨h.named, ?_, fun r hr => iff_of_false (fun hun => ?_) (by simp), ?_, ?_, h.noText, h.unsettled, h.unspent, ?_⟩
  on_goal 2 =>
    obtain ⟨q, hq, hl⟩ := (h.state r hr).mp hun
    rw [hR q hq] at hl
    cases hl
  all_goals (intro x hx; cases hx)

end

section
variable {D : RecoveryKey → Prop} {down : List OperationIdentity} {c : Channel}

variable {wid : String} {r record : WithdrawalRecord} {i : Nat} {q : RecoveryRecord}

theorem retained_eq_some : c.retained wid = some r ↔ ∃ i, c.withdrawals.get? wid = some i ∧ c.records[i]? = some r := by
  constructor
  · intro h
    obtain ⟨⟨i, r'⟩, hw, rfl⟩ := Option.map_eq_some_iff.mp h
    exact ⟨i, withdrawal_eq_some hw⟩
  intro h
  obtain ⟨i, hi, hr⟩ := h
  simp [Channel.retained, Channel.withdrawal, hi, hr]

theorem retained_of_none (h : c.withdrawals.get? wid = none) : c.retained wid = none := by
  simp [Channel.retained, Channel.withdrawal, h]

theorem retained_congr {c' : Channel} (hr : c'.records = c.records)
    (hw : c'.withdrawals.get? wid = c.withdrawals.get? wid) : c'.retained wid = c.retained wid := by
  simp [Channel.retained, Channel.withdrawal, hr, hw]

theorem retained_modifyRecord {wid' : String} {f : WithdrawalRecord → WithdrawalRecord}
    (hn : ∀ wid r, c.retained wid = some r → r.withdrawRequestId = wid) (hi : c.withdrawals.get? wid = some i)
    (hr : c.records[i]? = some r) :
    (c.modifyRecord i f).retained wid' = if wid' = wid then some (f r) else c.retained wid' := by
  by_cases hw : wid' = wid
  · rw [if_pos hw, hw, retained_eq_some]
    exact ⟨i, hi, by simp [Channel.modifyRecord, hr]⟩
  rw [if_neg hw]
  ext x
  rw [retained_eq_some, retained_eq_some]
  apply exists_congr
  intro j
  apply and_congr_right
  intro hj
  have hij : i ≠ j := by
    intro heq
    subst heq
    apply hw
    rw [← hn wid' r (retained_eq_some.mpr ⟨i, hj, hr⟩), hn wid r (retained_eq_some.mpr ⟨i, hi, hr⟩)]
  simp [Channel.modifyRecord, hij]

/-! ### Making room for a withdrawal -/

theorem disposable_of_retained (h : c.disposable i = true) (hi : c.withdrawals.get? wid = some i) :
    ∀ r, c.retained wid = some r → r.recoveryState ≠ .recoveryUnacknowledged := by
  intro r hr
  obtain ⟨j, hj, hrj⟩ := retained_eq_some.mp hr
  rw [hi, Option.some.injEq] at hj
  subst hj
  simpa [Channel.disposable, hrj] using h

theorem exists_disposable (hA : ∀ wid, Agrees D down wid (c.retained wid) (c.recoveries.get? wid))
    (hp : ∀ wid i, c.withdrawals.get? wid = some i → i < c.records.length)
    (hroom : c.recoveries.entries.length < c.withdrawals.entries.length) :
    ∃ e ∈ c.withdrawals.entries, c.disposable e.2 = true := by
  by_contra hno
  have hsub : c.withdrawals.keys ⊆ c.recoveries.keys := by
    intro wid hwid
    obtain ⟨i, hi⟩ := Dict.mem_keys.mp hwid
    obtain ⟨r, hr⟩ : ∃ r, c.records[i]? = some r := ⟨_, List.getElem?_eq_getElem (hp wid i hi)⟩
    by_cases hun : r.recoveryState = .recoveryUnacknowledged
    · obtain ⟨q, hq, -⟩ := ((hA wid).state r (retained_eq_some.mpr ⟨i, hi, hr⟩)).mp hun
      exact Dict.mem_keys.mpr ⟨q, hq⟩
    · refine absurd ⟨(wid, i), Dict.get?_eq_some.mp hi, ?_⟩ hno
      simpa [Channel.disposable, hr] using hun
  have hle := (List.subperm_of_subset c.withdrawals.nodup hsub).length_le
  simp only [Dict.keys, List.length_map] at hle
  omega

theorem agrees_evictWithdrawals (n : Nat) : ∀ c : Channel,
    (∀ wid, Agrees D down wid (c.retained wid) (c.recoveries.get? wid)) →
    (∀ wid i, c.withdrawals.get? wid = some i → i < c.records.length) →
    c.recoveries.entries.length ≤ maxRecoveriesPerChannel →
    c.withdrawals.entries.length = maxWithdrawalsPerChannel + n →
    (∀ wid, Agrees D down wid ((Channel.evictWithdrawals n c).retained wid)
      ((Channel.evictWithdrawals n c).recoveries.get? wid)) ∧
      (Channel.evictWithdrawals n c).withdrawals.entries.length = maxWithdrawalsPerChannel := by
  induction n with
  | zero =>
    intro c hA _ _ hlen
    exact ⟨hA, hlen⟩
  | succ n ih =>
    intro c hA hp hrec hlen
    obtain ⟨e, he, hd⟩ := exists_disposable hA hp (by
      rw [hlen]
      have : maxRecoveriesPerChannel < maxWithdrawalsPerChannel := by decide
      omega)
    have hfind : ∃ x, c.withdrawals.entries.find? (fun e => c.disposable e.2) = some x :=
      Option.isSome_iff_exists.mp (List.find?_isSome.mpr ⟨e, he, hd⟩)
    obtain ⟨x, hx⟩ := hfind
    have hget : c.withdrawals.get? x.1 = some x.2 := Dict.get?_eq_some.mpr (List.mem_of_find?_eq_some hx)
    have hdisp : c.disposable x.2 = true := List.find?_some (p := fun e : String × Nat => c.disposable e.2) hx
    have hvictim : c.withdrawalVictim = some x.1 := by rw [Channel.withdrawalVictim, hx]
    rw [Channel.evictWithdrawals, hvictim]
    apply ih { c with withdrawals := c.withdrawals.erase x.1 }
    · intro wid
      by_cases hw : wid = x.1
      · have hnone : (c.withdrawals.erase x.1).get? wid = none := by rw [Dict.get?_erase, if_pos hw]
        rw [retained_of_none (c := { c with withdrawals := c.withdrawals.erase x.1 }) hnone]
        exact (hA wid).forgetWithdrawal (disposable_of_retained hdisp (hw ▸ hget))
      have hsame : ({ c with withdrawals := c.withdrawals.erase x.1 } : Channel).retained wid = c.retained wid :=
        retained_congr rfl (by rw [Dict.get?_erase, if_neg hw])
      rw [hsame]
      exact hA wid
    · intro wid i hi
      rw [Dict.get?_erase] at hi
      split at hi
      · cases hi
      · exact hp wid i hi
    · exact hrec
    · have hlen' := Dict.length_erase_of_some hget
      simp only
      omega

def Channel.withRecord (c : Channel) (record : WithdrawalRecord) : Channel :=
  { c with
    records := c.records ++ [record]
    withdrawals := c.withdrawals.set record.withdrawRequestId c.records.length }

theorem storeWithdrawal_eq (record : WithdrawalRecord) :
    c.storeWithdrawal record =
      Channel.evictWithdrawals ((c.withRecord record).withdrawals.entries.length - maxWithdrawalsPerChannel)
        (c.withRecord record) := rfl

theorem retained_withRecord (hp : ∀ wid i, c.withdrawals.get? wid = some i → i < c.records.length) (wid : String) :
    (c.withRecord record).retained wid = if wid = record.withdrawRequestId then some record else c.retained wid := by
  by_cases hw : wid = record.withdrawRequestId
  · rw [if_pos hw, retained_eq_some]
    exact ⟨c.records.length, by simp [Channel.withRecord, hw], by simp [Channel.withRecord]⟩
  rw [if_neg hw]
  ext x
  rw [retained_eq_some, retained_eq_some]
  apply exists_congr
  intro j
  simp only [Channel.withRecord, Dict.get?_set_ne _ _ (Ne.symm hw)]
  apply and_congr_right
  intro hj
  rw [List.getElem?_append_left (hp wid j hj)]

theorem placed_withRecord (hp : ∀ wid i, c.withdrawals.get? wid = some i → i < c.records.length) :
    ∀ wid i, (c.withRecord record).withdrawals.get? wid = some i → i < (c.withRecord record).records.length := by
  intro wid i hi
  simp only [Channel.withRecord, Dict.get?_set] at hi
  simp only [Channel.withRecord, List.length_append, List.length_singleton]
  split at hi
  · cases hi
    omega
  · have := hp wid i hi
    omega

theorem length_withRecord (hn : c.withdrawals.get? record.withdrawRequestId = none) :
    (c.withRecord record).withdrawals.entries.length = c.withdrawals.entries.length + 1 := by
  simp [Channel.withRecord, Dict.set_entries_of_none hn]

/-! ### Making room for a recovery -/

/-- Storing a recovery under this request id evicts none that is live. -/
def Channel.sparesLive (c : Channel) (wid : String) : Bool :=
  (c.recoveries.get? wid).isSome || decide (c.recoveries.entries.length < maxRecoveriesPerChannel) ||
    c.recoveries.entries.head?.all fun e => !e.2.live

structure Stored (c c' : Channel) (q : RecoveryRecord) (evicted : List RecoveryRecord) : Prop where
  here : c'.recoveries.get? q.withdrawRequestId = some q
  others : ∀ wid, wid ≠ q.withdrawRequestId → c'.recoveries.get? wid = c.recoveries.get? wid ∨
    (c'.recoveries.get? wid = none ∧ ∀ x, c.recoveries.get? wid = some x → x.live = false)
  dead : ∀ x ∈ evicted, x.live = false ∧ ∃ wid, c.recoveries.get? wid = some x
  room : c'.recoveries.entries.length ≤ maxRecoveriesPerChannel

theorem stored_of_fits (hfits : (c.recoveries.set q.withdrawRequestId q).entries.length ≤ maxRecoveriesPerChannel) :
    Stored c (c.storeRecovery q).1 q (c.storeRecovery q).2 := by
  have hzero := Nat.sub_eq_zero_of_le hfits
  unfold Channel.storeRecovery
  dsimp only
  rw [hzero]
  refine ⟨Dict.get?_set_self .., fun wid hw => ?_, fun x hx => ?_, hfits⟩
  · exact Or.inl (Dict.get?_set_ne _ _ (Ne.symm hw))
  · cases hx

theorem stored_of_full {victim : RecoveryRecord} {key : String} {rest : List (String × RecoveryRecord)}
    (hent : c.recoveries.entries = (key, victim) :: rest)
    (hfull : c.recoveries.entries.length = maxRecoveriesPerChannel) (hq : c.recoveries.get? q.withdrawRequestId = none)
    (hdead : victim.live = false) : Stored c (c.storeRecovery q).1 q (c.storeRecovery q).2 := by
  have hvictim : c.recoveries.get? key = some victim := Dict.get?_eq_some.mpr (by rw [hent]; simp)
  have hne : key ≠ q.withdrawRequestId := by
    intro heq
    rw [heq, hq] at hvictim
    cases hvictim
  have hset := Dict.set_entries_of_none (v := q) hq
  have hone : (c.recoveries.set q.withdrawRequestId q).entries.length - maxRecoveriesPerChannel = 1 := by
    rw [hset, List.length_append, List.length_singleton]
    omega
  have hentries : (c.recoveries.set q.withdrawRequestId q).entries = (key, victim) :: (rest ++ [(q.withdrawRequestId, q)]) := by
    rw [hset, hent]
    rfl
  have hget : (c.recoveries.set q.withdrawRequestId q).get? key = some victim := by
    rw [Dict.get?_set_ne _ _ (Ne.symm hne), hvictim]
  have herase := Dict.length_erase_of_some hget
  unfold Channel.storeRecovery
  dsimp only
  rw [hone]
  simp only [Channel.evictRecoveries, hentries]
  refine ⟨?_, fun wid hw => ?_, fun x hx => ?_, ?_⟩
  · rw [Dict.get?_erase, if_neg (Ne.symm hne)]
    exact Dict.get?_set_self ..
  · by_cases hk : wid = key
    · right
      refine ⟨by rw [Dict.get?_erase, if_pos hk], fun x hx => ?_⟩
      rw [hk, hvictim, Option.some.injEq] at hx
      rw [← hx, hdead]
    · left
      rw [Dict.get?_erase, if_neg hk, Dict.get?_set_ne _ _ (Ne.symm hw)]
  · rw [List.mem_singleton.mp hx]
    exact ⟨hdead, key, hvictim⟩
  · simp only
    omega

theorem stored_of_sparesLive (hroom : c.recoveries.entries.length ≤ maxRecoveriesPerChannel)
    (hs : c.sparesLive q.withdrawRequestId = true) : Stored c (c.storeRecovery q).1 q (c.storeRecovery q).2 := by
  cases hq : c.recoveries.get? q.withdrawRequestId with
  | some old =>
    apply stored_of_fits
    rw [Dict.length_set_of_some hq]
    exact hroom
  | none =>
    by_cases hlt : c.recoveries.entries.length < maxRecoveriesPerChannel
    · apply stored_of_fits
      rw [Dict.set_entries_of_none hq, List.length_append, List.length_singleton]
      exact hlt
    cases hent : c.recoveries.entries with
    | nil =>
      rw [hent] at hlt
      exact absurd (by decide) hlt
    | cons e rest =>
      have hfull : c.recoveries.entries.length = maxRecoveriesPerChannel := by omega
      apply stored_of_full hent hfull hq
      rw [Channel.sparesLive, hq, Option.isSome_none, Bool.false_or, decide_eq_false hlt, Bool.false_or, hent] at hs
      simpa using hs

end

/-! ## The store and its history -/

structure StoreInv (c : Channel) (down : List OperationIdentity) (history : List Event) : Prop where
  agrees : ∀ wid, Agrees (fun k => .disposed k ∈ history) down wid (c.retained wid) (c.recoveries.get? wid)
  down : ∀ k, .disposed k ∈ history → k.operation ∈ down
  silent : ∀ k, NeverAfter (· = .disposed k) (CarriesText k) history
  withdrawalRoom : c.withdrawals.entries.length ≤ maxWithdrawalsPerChannel
  recoveryRoom : c.recoveries.entries.length ≤ maxRecoveriesPerChannel

section
variable {c c' : Channel} {down down' : List OperationIdentity} {history : List Event}

theorem StoreInv.congr (h : StoreInv c down history) (hr : c'.records = c.records)
    (hw : ∀ wid, c'.withdrawals.get? wid = c.withdrawals.get? wid)
    (hlen : c'.withdrawals.entries.length = c.withdrawals.entries.length) (hrec : c'.recoveries = c.recoveries) :
    StoreInv c' down history :=
  { h with
    agrees := by
      intro wid
      rw [retained_congr hr (hw wid), hrec]
      exact h.agrees wid
    withdrawalRoom := hlen ▸ h.withdrawalRoom
    recoveryRoom := hrec ▸ h.recoveryRoom }

theorem StoreInv.wider (h : StoreInv c down history) (hd : ∀ o ∈ down, o ∈ down') : StoreInv c down' history :=
  { h with
    agrees := fun wid => (h.agrees wid).mono (fun _ hk => hk) (fun _ _ hk => hk) hd
    down := fun k hk => hd _ (h.down k hk) }

theorem StoreInv.rewrite {history' : List Event} (h : StoreInv c down history)
    (hmem : ∀ k, .disposed k ∈ history' ↔ .disposed k ∈ history)
    (hsilent : ∀ k, NeverAfter (· = .disposed k) (CarriesText k) history') : StoreInv c down history' :=
  { h with
    agrees := fun wid => (h.agrees wid).mono (fun k hk => (hmem k).mpr hk) (fun k _ hk => (hmem k).mp hk) fun _ ho => ho
    down := fun k hk => h.down k ((hmem k).mp hk)
    silent := hsilent }

theorem mem_disposed_concat {e : Event} {k : RecoveryKey} (he : ∀ k, e ≠ .disposed k) (h : .disposed k ∈ history ++ [e]) :
    .disposed k ∈ history := by
  rw [List.mem_append, List.mem_singleton] at h
  exact h.resolve_right fun heq => he k heq.symm

theorem StoreInv.reply (h : StoreInv c down history) {e : Event} (he : ∀ k, e ≠ .disposed k)
    (ht : ∀ k, CarriesText k e → .disposed k ∉ history) : StoreInv c down (history ++ [e]) := by
  refine h.rewrite (fun k => ⟨mem_disposed_concat he, List.mem_append_left _⟩) fun k => ?_
  apply (h.silent k).concat
  intro hq x hx heq
  exact ht k hq (heq ▸ hx)

theorem not_carriesText_project {key k : RecoveryKey} {p : WithdrawalOperationProjection} :
    ¬ CarriesText k (.projected key p) := id

theorem StoreInv.repeated (h : StoreInv c down history) : ∀ {qs : List RecoveryRecord},
    (∀ q ∈ qs, .disposed q.key ∈ history) → StoreInv c down (history ++ World.disposals qs) := by
  intro qs
  induction qs generalizing history with
  | nil =>
    intro _
    rw [World.disposals, List.map_nil, List.append_nil]
    exact h
  | cons q qs ih =>
    intro hqs
    have hq := hqs q (by simp)
    have hmem : ∀ k, .disposed k ∈ history ++ [.disposed q.key] ↔ .disposed k ∈ history := by
      intro k
      rw [List.mem_append, List.mem_singleton, Event.disposed.injEq]
      exact ⟨fun hk => hk.elim id fun heq => heq ▸ hq, Or.inl⟩
    have hone : StoreInv c down (history ++ [.disposed q.key]) :=
      h.rewrite hmem fun k => (h.silent k).concat fun ht => absurd ht id
    have hrest := ih hone fun x hx => List.mem_append_left _ (hqs x (List.mem_cons_of_mem _ hx))
    rw [List.append_assoc] at hrest
    exact hrest

variable {wid : String} {q : RecoveryRecord} {r : WithdrawalRecord}

theorem StoreInv.dispose {r' : WithdrawalRecord} (state : RecoveryState) (h : StoreInv c down history)
    (hq : c.recoveries.get? wid = some q) (hl : q.live = true) (hr : c.retained wid = some r) (hu : Undriven r r')
    (hs : r'.recoveryState = state) (hstate : state = .acknowledged ∨ state = .expired)
    (hret : ∀ k, c'.retained k = if k = wid then some r' else c.retained k)
    (hrec : c'.recoveries = c.recoveries.set wid (q.dispose state)) (hw : c'.withdrawals = c.withdrawals) :
    StoreInv c' down (history ++ [.disposed q.key]) := by
  have hname : q.withdrawRequestId = wid := (h.agrees wid).recoveryNamed q hq
  have hself : Event.disposed q.key ∈ history ++ [.disposed q.key] := by simp
  refine ⟨fun k => ?_, fun k hk => ?_, fun k => ?_, ?_, ?_⟩
  · rw [hret, hrec, Dict.get?_set]
    by_cases hk : k = wid
    · rw [if_pos hk, if_pos hk.symm, hk]
      have hold := h.agrees wid
      rw [hq, hr] at hold
      exact hold.dispose hl hu hs hstate hself
    rw [if_neg hk, if_neg (Ne.symm hk)]
    refine (h.agrees k).mono (fun _ hx => List.mem_append_left _ hx) (fun x hx hd => ?_) fun _ ho => ho
    rcases List.mem_append.mp hd with hd | hd
    · exact hd
    -- the recovery disposed of has another request id
    rw [List.mem_singleton, Event.disposed.injEq] at hd
    rw [hd] at hx
    exact absurd (hx.symm.trans hname) hk
  · rcases List.mem_append.mp hk with hk | hk
    · exact h.down k hk
    rw [List.mem_singleton, Event.disposed.injEq] at hk
    rw [hk]
    exact (h.agrees wid).down q hq
  · apply (h.silent k).concat
    intro ht
    exact absurd ht id
  · rw [hw]
    exact h.withdrawalRoom
  · rw [hrec, Dict.length_set_of_some hq]
    exact h.recoveryRoom

theorem StoreInv.replaced (h : StoreInv c down history)
    (hR : ∀ q, c.recoveries.get? r.withdrawRequestId = some q → q.live = false) (hs : r.recoveryState = .none)
    (ht : r.response.text = "") (hp : r.phase = .unknown → .disposed r.key ∉ history) (wid : String) :
    Agrees (fun k => .disposed k ∈ history) down wid (if wid = r.withdrawRequestId then some r else c.retained wid)
      (c.recoveries.get? wid) := by
  by_cases hw : wid = r.withdrawRequestId
  · rw [if_pos hw]
    exact (h.agrees wid).replace (hw ▸ hR) hw.symm hs ht hp
  · rw [if_neg hw]
    exact h.agrees wid

theorem StoreInv.offered {evicted : List RecoveryRecord} (h : StoreInv c down history) (hs : Stored c c' q evicted)
    (hk : r.key = q.key) (hu : r.recoveryState = .recoveryUnacknowledged) (hp : r.phase = .settled) (hl : q.live = true)
    (hD : .disposed q.key ∉ history) (hdown : q.operation ∈ down) (wid : String) :
    Agrees (fun k => .disposed k ∈ history) down wid (if wid = r.withdrawRequestId then some r else c.retained wid)
      (c'.recoveries.get? wid) := by
  have hname : r.withdrawRequestId = q.withdrawRequestId := congrArg RecoveryKey.withdrawRequestId hk
  by_cases hw : wid = r.withdrawRequestId
  · rw [if_pos hw, hw, hname, hs.here]
    exact agrees_offered hname hk hu hp hl hD hdown
  rw [if_neg hw]
  rcases hs.others wid (hname ▸ hw) with hsame | ⟨hnone, hdead⟩
  · rw [hsame]
    exact h.agrees wid
  · rw [hnone]
    exact (h.agrees wid).forgetRecovery hdead

theorem StoreInv.dead_of_fresh (h : StoreInv c down history) (hn : c.withdrawals.get? wid = none) :
    ∀ q, c.recoveries.get? wid = some q → q.live = false := by
  intro q hq
  cases hl : q.live with
  | false => rfl
  | true =>
    obtain ⟨r, hr, -⟩ := (h.agrees wid).owned q hq hl
    rw [retained_of_none hn] at hr
    cases hr

theorem StoreInv.dead_of_unknown (h : StoreInv c down history) (hr : c.retained wid = some r) (hp : r.phase = .unknown)
    : ∀ q, c.recoveries.get? wid = some q → q.live = false := by
  intro q hq
  cases hl : q.live with
  | false => rfl
  | true =>
    have hnone := (h.agrees wid).unsettled r hr hp
    rw [((h.agrees wid).state r hr).mpr ⟨q, hq, hl⟩] at hnone
    cases hnone

end

/-! ## One step -/

structure RecoveryInv (w : World) : Prop where
  lock : LockInv w
  store : StoreInv w.channel w.withdrawn w.history
  driving : ∀ a i, w.driver = some (.redriving a i) →
    ∃ r, w.channel.records[i]? = some r ∧ w.channel.withdrawals.get? r.withdrawRequestId = some i
  crossing : ∀ a ticket, w.driver = some (.crossing a ticket) → .disposed ticket.key ∉ w.history

def FindsRetained (w : World) : Prop :=
  match w.waiting with
  | .reconcile _ i :: _ =>
    (w.channel.records[i]?).any (fun r => r.phase = .unknown ∧ w.channel.withdrawals.get? r.withdrawRequestId = some i) = true
  | _ => True

def World.crossingTicket (service : Service) (w : World) : Option (AuthorizationBinding × WithdrawalTicket) :=
  match w.driver with
  | some (.crossing authorization ticket) => some (authorization, ticket)
  | some (.redriving authorization i) =>
    (w.channel.records[i]?).map fun record => (authorization, redriveTicket service authorization record)
  | _ => none

def FindsRoom (service : Service) (w : World) (result : WithdrawalResult) (now : String) : Prop :=
  (w.crossingTicket service).all (fun driven =>
    result.outcome ≠ .withdrawn ∨
      (makeOffer service driven.1 w.channel driven.2 result now).all (fun made =>
        !made.1.made || w.channel.sparesLive driven.2.withdrawRequestId) = true) = true

/-- No live recovery is evicted, and no withdrawal is driven that is settled or no longer retained. -/
def KeepsRecoveries (service : Service) (w : World) : Action → Prop
  | .acquire => FindsRetained w
  | .crossed (.answered result) now => FindsRoom service w result now
  | _ => True

instance (w : World) : Decidable (FindsRetained w) :=
  match hw : w.waiting with
  | .reconcile _ i :: _ =>
    decidable_of_iff ((w.channel.records[i]?).any (fun r => r.phase = .unknown ∧
      w.channel.withdrawals.get? r.withdrawRequestId = some i) = true) (by simp [FindsRetained, hw])
  | .withdraw .. :: _ => .isTrue (by simp [FindsRetained, hw])
  | [] => .isTrue (by simp [FindsRetained, hw])

instance (service : Service) (w : World) (result : WithdrawalResult) (now : String) :
    Decidable (FindsRoom service w result now) := inferInstanceAs (Decidable (_ = true))

instance (service : Service) (w : World) : (a : Action) → Decidable (KeepsRecoveries service w a)
  | .acquire => inferInstanceAs (Decidable (FindsRetained w))
  | .crossed (.answered result) now => inferInstanceAs (Decidable (FindsRoom service w result now))
  | .crossed .epochMismatch _ | .crossed .notSent _ | .crossed (.maybeSent _) _ | .crossed (.controlError _) _ => .isTrue trivial
  | .withdraw .. | .withdrawStatus .. | .fetchRecovery .. | .acknowledgeRecovery .. | .sweep _ | .cancelWaiter _ | .timeline _
  | .abandon | .submits .. | .rowWithdrawn _ => .isTrue trivial

section
variable {service : Service} {w w' : World}

theorem inv_quiet (h : RecoveryInv w) (hq : Quiet w.channel w'.channel) (hd : w'.driver = w.driver)
    (hs : StoreInv w'.channel w'.withdrawn w'.history)
    (hnew : ∀ k, .disposed k ∈ w'.history →
      .disposed k ∈ w.history ∨ w.channel.withdrawals.get? k.withdrawRequestId ≠ none) :
    RecoveryInv w' where
  lock := lockInv_quiet h.lock hq hd
  store := hs
  driving := by
    intro a i hdr
    obtain ⟨r, hr, hi⟩ := h.driving a i (hd ▸ hdr)
    obtain ⟨r', hr', hu⟩ := hq.records i r hr
    refine ⟨r', hr', ?_⟩
    rw [show r'.withdrawRequestId = r.withdrawRequestId from congrArg RecoveryKey.withdrawRequestId hu.key, hq.withdrawals]
    exact hi
  crossing := by
    intro a ticket hdr hmem
    have hdr' := hd ▸ hdr
    rcases hnew _ hmem with hold | hne
    · exact h.crossing a ticket hdr' hold
    · exact hne (h.lock.fresh _ ticket hdr' rfl)

theorem inv_free (hl : LockInv w) (hs : StoreInv w.channel w.withdrawn w.history) (hd : w.driver = none) : RecoveryInv w where
  lock := hl
  store := hs
  driving := fun a i hdr => by rw [hd] at hdr; cases hdr
  crossing := fun a t hdr => by rw [hd] at hdr; cases hdr

variable {k : RecoveryKey} {e : Event} {history : List Event} {wid now : String} {r record : WithdrawalRecord}
  {c : Channel} {i : Nat} {down : List OperationIdentity} {q : RecoveryRecord} {ticket : WithdrawalTicket}
  {result : WithdrawalResult} {offer : Offer} {identity : OperationIdentity} {authorization : AuthorizationBinding}
  {evicted : List RecoveryRecord} {outcome : CrossingOutcome} {x : Waiter} {items : List OperationTimelineItem}

theorem inv_reply (h : RecoveryInv w) (he : ∀ k, e ≠ .disposed k) (ht : ∀ k, CarriesText k e → .disposed k ∉ w.history)
    : RecoveryInv (w.log [e]) :=
  inv_quiet h (quiet_of_eq rfl fun _ => rfl) rfl (h.store.reply he ht) fun _ hk => Or.inl (mem_disposed_concat he hk)

theorem inv_project (h : RecoveryInv w) (r : WithdrawalRecord) : RecoveryInv (w.project r) := by
  unfold World.project
  split
  · exact h
  · exact inv_reply h (fun k hk => by cases hk) fun k hk => absurd hk not_carriesText_project

theorem inv_moveToEnd (h : RecoveryInv w) (wid : String) : RecoveryInv { w with channel := w.channel.moveToEnd wid } :=
  inv_quiet h (quiet_moveToEnd wid) rfl
    (h.store.congr rfl (fun k => Dict.get?_moveToEnd _ _ k) (Dict.length_moveToEnd _ _) rfl) fun _ hk => Or.inl hk

theorem inv_replay (h : RecoveryInv w) (hr : w.channel.retained wid = some r) :
    RecoveryInv (w.reply r (replayResponse r)) := by
  apply inv_reply h
  · intro k hk
    cases hk
  intro k hk
  obtain ⟨rfl, ht⟩ := hk
  obtain ⟨ha, he, ht⟩ := replayResponse_text ht
  have hA := h.store.agrees wid
  apply hA.unspent r hr
  left
  cases hs : r.recoveryState with
  | none => exact absurd (hA.noText r hr hs) ht
  | recoveryUnacknowledged => rfl
  | acknowledged => exact absurd hs ha
  | expired => exact absurd hs he

theorem retained_of_withdrawal (h : c.withdrawal wid = some (i, r)) : c.retained wid = some r := by
  rw [Channel.retained, h]
  rfl

/-! ### Expiry and acknowledgement -/

theorem retained_modify {f : WithdrawalRecord → WithdrawalRecord} (h : StoreInv c down history)
    (hw : c.withdrawal wid = some (i, r)) (k : String) :
    (c.modifyRecord i f).retained k = if k = wid then some (f r) else c.retained k :=
  retained_modifyRecord (fun k x hx => (h.agrees k).named x hx) (withdrawal_eq_some hw).1 (withdrawal_eq_some hw).2

theorem withdrawal_of_live (h : StoreInv c down history) (hq : c.recoveries.get? wid = some q) (hl : q.live = true) :
    q.withdrawRequestId = wid ∧ ∃ i r, c.withdrawal wid = some (i, r) ∧ r.recoveryState = .recoveryUnacknowledged := by
  refine ⟨(h.agrees wid).recoveryNamed q hq, ?_⟩
  obtain ⟨r, hr, -⟩ := (h.agrees wid).owned q hq hl
  obtain ⟨⟨i, r'⟩, hw, rfl⟩ := Option.map_eq_some_iff.mp hr
  exact ⟨i, r', hw, ((h.agrees wid).state r' hr).mpr ⟨q, hq, hl⟩⟩

theorem mem_disposed_key (hi : w.channel.withdrawals.get? q.withdrawRequestId ≠ none)
    (hk : .disposed k ∈ w.history ++ [.disposed q.key]) :
    .disposed k ∈ w.history ∨ w.channel.withdrawals.get? k.withdrawRequestId ≠ none := by
  rcases List.mem_append.mp hk with hk | hk
  · exact Or.inl hk
  rw [List.mem_singleton, Event.disposed.injEq] at hk
  rw [hk]
  exact Or.inr hi

theorem inv_expire (h : RecoveryInv w) (hq : w.channel.recoveries.get? wid = some q) (hl : q.live = true) :
    RecoveryInv ({ w with channel := w.channel.expireRecovery wid q }.log [.disposed q.key]) := by
  obtain ⟨hname, i, r, hw, hun⟩ := withdrawal_of_live h.store hq hl
  have hi := (withdrawal_eq_some hw).1
  have hexpire : w.channel.expireRecovery wid q =
      Channel.modifyRecord
        { w.channel with
          recoveries := w.channel.recoveries.set wid (q.dispose .expired)
          attachments := deleteRecoverable w.channel.attachments q.operation.operationId } i WithdrawalRecord.expire := by
    rw [Channel.expireRecovery, Channel.modifyWithdrawal, hname]
    simp only [hi]
  refine inv_quiet h (quiet_expireRecovery wid q) rfl ?_ ?_
  · refine h.store.dispose .expired hq hl (retained_of_withdrawal hw) (undriven_expire r) ?_ (Or.inr rfl) ?_ ?_ ?_
    · rw [WithdrawalRecord.expire, if_pos hun]
    · intro k
      rw [World.log, hexpire]
      exact retained_modify h.store hw k
    · rw [World.log, hexpire]
      rfl
    · rw [World.log, hexpire]
      rfl
  · intro k hk
    refine mem_disposed_key ?_ hk
    rw [hname, hi]
    exact Option.some_ne_none i

theorem inv_sweepLoop (now : String) : ∀ (l : List (String × RecoveryRecord)) (w : World), RecoveryInv w →
    (∀ e ∈ l, w.channel.recoveries.get? e.1 = some e.2) → (l.map Prod.fst).Nodup →
    RecoveryInv ({ w with channel := (Channel.sweepLoop service now w.channel l).1 }.log
      (World.disposals (Channel.sweepLoop service now w.channel l).2)) := by
  intro l
  induction l with
  | nil =>
    intro w h _ _
    have hsame : ({ w with channel := w.channel } : World).log [] = w := by simp [World.log]
    exact hsame.symm ▸ h
  | cons e l ih =>
    intro w h hl hn
    obtain ⟨key, q⟩ := e
    rw [List.map_cons, List.nodup_cons] at hn
    have hrest : ∀ e ∈ l, w.channel.recoveries.get? e.1 = some e.2 := fun e he => hl e (List.mem_cons_of_mem _ he)
    rw [Channel.sweepLoop]
    by_cases hlease : Channel.leaseOver service now q = true
    · rw [if_pos hlease]
      have hlive : q.live = true := (Bool.and_eq_true_iff.mp hlease).1
      have hone := inv_expire h (hl (key, q) (by simp)) hlive
      have hother : ∀ e ∈ l, (w.channel.expireRecovery key q).recoveries.get? e.1 = some e.2 := by
        intro e he
        have hne : key ≠ e.1 := by
          intro heq
          have hmem : e.1 ∈ l.map Prod.fst := List.mem_map_of_mem he
          exact hn.1 (heq ▸ hmem)
        have hrec : (w.channel.expireRecovery key q).recoveries = w.channel.recoveries.set key (q.dispose .expired) := by
          unfold Channel.expireRecovery Channel.modifyWithdrawal
          split <;> rfl
        rw [hrec, Dict.get?_set_ne _ _ hne]
        exact hrest e he
      have hih := ih _ hone hother hn.2
      simpa [World.log, World.disposals] using hih
    · rw [if_neg hlease]
      exact ih w h hrest hn.2

theorem inv_sweep (h : RecoveryInv w) (now : String) : RecoveryInv (w.sweep service now) :=
  inv_sweepLoop now _ w h (fun _ he => Dict.get?_eq_some.mpr he) w.channel.recoveries.nodup

theorem inv_acknowledge (h : RecoveryInv w) (recoveryRef : String) (disposition : Disposition) :
    RecoveryInv (w.acknowledgeRecovery recoveryRef disposition) := by
  unfold World.acknowledgeRecovery
  cases hf : w.channel.findRecovery recoveryRef with
  | none => exact h
  | some found =>
    obtain ⟨key, q⟩ := found
    have hq : w.channel.recoveries.get? key = some q := Dict.get?_eq_some.mpr (List.mem_of_find?_eq_some hf)
    by_cases hl : q.live = true
    · obtain ⟨hname, i, r, hw, -⟩ := withdrawal_of_live h.store hq hl
      have hw' : ({ w with channel.recoveries := w.channel.recoveries.set key (q.dispose .acknowledged) }.log
          [.disposed q.key]).channel.withdrawal q.withdrawRequestId = some (i, r) := by
        rw [hname]
        exact hw
      simp only [hl, Bool.not_true, Bool.false_eq_true, if_false, hw']
      apply inv_project
      refine inv_quiet h ?_ rfl ?_ ?_
      · have hd : Quiet w.channel
            { w.channel with recoveries := w.channel.recoveries.set key (q.dispose .acknowledged) } :=
          quiet_of_eq rfl fun _ => rfl
        refine hd.trans ?_
        split
        · exact (quiet_modifyRecord undriven_acknowledge).trans (quiet_of_eq rfl fun _ => rfl)
        · exact quiet_modifyRecord undriven_acknowledge
      · refine h.store.dispose .acknowledged hq hl (retained_of_withdrawal hw) (undriven_acknowledge r) rfl (Or.inl rfl)
          ?_ ?_ ?_
        · intro k
          split <;> exact retained_modify h.store hw k
        · split <;> rfl
        · split <;> rfl
      intro k hk
      refine mem_disposed_key ?_ hk
      rw [hname, (withdrawal_eq_some hw).1]
      exact Option.some_ne_none i
    · simp only [hl, Bool.not_false, if_true]
      exact h

/-! ### A driver's result -/

theorem failureForResult_record (h : failureForResult ticket result = some record) :
    record.recoveryState = .none ∧ record.response.text = "" ∧ record.phase = .settled := by
  unfold failureForResult at h
  split at h <;> cases h <;> exact ⟨rfl, rfl, rfl⟩

theorem Offer.text_of_not_made (h : offer.made = false) : offer.payload.text = "" := by
  rw [Offer.made, decide_eq_false_iff_not, not_or, not_not] at h
  rw [Offer.payload, recoveryPayload, h.1]
  rfl

def downAfter (down : List OperationIdentity) (identity : OperationIdentity) (result : WithdrawalResult) :
    List OperationIdentity :=
  if result.outcome = .withdrawn then down ++ [identity] else down

theorem noteWithdrawn_withdrawn (w : World) (identity : OperationIdentity) (result : WithdrawalResult) :
    (w.noteWithdrawn identity result).withdrawn = downAfter w.withdrawn identity result := by
  unfold World.noteWithdrawn downAfter
  split <;> rfl

theorem noteWithdrawn_history (w : World) (identity : OperationIdentity) (result : WithdrawalResult) :
    (w.noteWithdrawn identity result).history = w.history := by
  unfold World.noteWithdrawn
  split <;> rfl

theorem mem_downAfter {o : OperationIdentity} (h : o ∈ down) : o ∈ downAfter down identity result := by
  unfold downAfter
  split
  · exact List.mem_append_left _ h
  · exact h

theorem result_agrees {c' : Channel} (ticket : WithdrawalTicket) (written : WithdrawalRecord)
    (h : StoreInv c down history) (hdead : ∀ q, c.recoveries.get? ticket.withdrawRequestId = some q → q.live = false)
    (hD : .disposed ticket.key ∉ history) (hroom : ∀ offer attachments, result.outcome = .withdrawn →
      makeOffer service authorization c ticket result now = some (offer, attachments) → offer.made = true →
      c.sparesLive ticket.withdrawRequestId = true)
    (happly : applyWithdrawalResult service authorization c ticket result now = some (record, c', evicted))
    (hkey : written.key = ticket.key) (hs : written.recoveryState = record.recoveryState)
    (hresponse : written.response = record.response) (hp : written.phase = record.phase) :
    (∀ wid, Agrees (fun k => .disposed k ∈ history) (downAfter down ticket.identity result) wid
      (if wid = written.withdrawRequestId then some written else c.retained wid) (c'.recoveries.get? wid)) ∧
      (∀ q ∈ evicted, .disposed q.key ∈ history) ∧ c'.recoveries.entries.length ≤ maxRecoveriesPerChannel := by
  have hname : written.withdrawRequestId = ticket.withdrawRequestId := congrArg RecoveryKey.withdrawRequestId hkey
  have hwide : StoreInv c (downAfter down ticket.identity result) history := h.wider fun _ ho => mem_downAfter ho
  rcases applyWithdrawalResult_cases happly with
    ⟨hf, rfl, rfl⟩ | ⟨offer, attachments, hout, hmake, rfl, ⟨hm, hstore⟩ | ⟨hm, rfl, rfl⟩⟩
  · obtain ⟨hn, ht, hset⟩ := failureForResult_record hf
    refine ⟨hwide.replaced (hname ▸ hdead) (hs.trans hn) (by rw [hresponse, ht]) ?_, fun q hq => (by cases hq),
      h.recoveryRoom⟩
    intro hun
    rw [hp, hset] at hun
    cases hun
  · have hstored := stored_of_sparesLive (c := { c with attachments := attachments }) (q := offeredRecovery ticket offer)
      h.recoveryRoom (hroom offer attachments hout hmake hm)
    rw [hstore] at hstored
    have hdown : ticket.identity ∈ downAfter down ticket.identity result := by simp [downAfter, hout]
    have hwide' : StoreInv { c with attachments := attachments } (downAfter down ticket.identity result) history :=
      hwide.congr rfl (fun _ => rfl) rfl rfl
    refine ⟨?_, ?_, hstored.room⟩
    · refine hwide'.offered hstored hkey ?_ hp rfl hD hdown
      rw [hs, withdrawnRecord, if_pos hm]
    intro q hq
    obtain ⟨hl, wid, hwid⟩ := hstored.dead q hq
    exact ((h.agrees wid).emptied q hwid hl).2
  · refine ⟨hwide.replaced (hname ▸ hdead) ?_ ?_ ?_, fun q hq => (by cases hq), h.recoveryRoom⟩
    · rw [hs, withdrawnRecord, hm]
      rfl
    · rw [hresponse]
      exact Offer.text_of_not_made hm
    intro hun
    rw [hp] at hun
    cases hun

theorem storeInv_settled (hA : ∀ wid, Agrees (fun k => .disposed k ∈ history) down wid
      (if wid = record.withdrawRequestId then some record else c.retained wid) (c.recoveries.get? wid))
    (hdown : ∀ k, .disposed k ∈ history → k.operation ∈ down)
    (hsilent : ∀ k, NeverAfter (· = .disposed k) (CarriesText k) history)
    (hp : ∀ wid i, c.withdrawals.get? wid = some i → i < c.records.length)
    (hn : c.withdrawals.get? record.withdrawRequestId = none)
    (hrec : c.recoveries.entries.length ≤ maxRecoveriesPerChannel)
    (hlen : c.withdrawals.entries.length ≤ maxWithdrawalsPerChannel) :
    StoreInv (c.storeWithdrawal record) down history := by
  have hadded : ∀ wid, Agrees (fun k => .disposed k ∈ history) down wid ((c.withRecord record).retained wid)
      ((c.withRecord record).recoveries.get? wid) := by
    intro wid
    rw [retained_withRecord hp]
    exact hA wid
  have hone := length_withRecord hn
  rw [storeWithdrawal_eq, hone]
  by_cases hroom : c.withdrawals.entries.length < maxWithdrawalsPerChannel
  · have hfits : c.withdrawals.entries.length + 1 - maxWithdrawalsPerChannel = 0 := Nat.sub_eq_zero_of_le hroom
    rw [hfits, Channel.evictWithdrawals]
    exact ⟨hadded, hdown, hsilent, hone.trans_le hroom, hrec⟩
  have hfull : c.withdrawals.entries.length + 1 - maxWithdrawalsPerChannel = 1 := by omega
  obtain ⟨hevicted, hcount⟩ := agrees_evictWithdrawals 1 _ hadded (placed_withRecord hp) hrec (by omega)
  rw [hfull]
  exact ⟨hevicted, hdown, hsilent, Nat.le_of_eq hcount, by rw [(evictWithdrawals_spec 1 _).2.1]; exact hrec⟩

theorem inv_settle (h : RecoveryInv w) (hn : w.channel.withdrawals.get? record.withdrawRequestId = none)
    (hs : record.recoveryState = .none) (ht : record.response.text = "")
    (hp : record.phase = .unknown → .disposed record.key ∉ w.history) : RecoveryInv (w.settle record) := by
  have hA := h.store.replaced (h.store.dead_of_fresh hn) hs ht hp
  have hstore := storeInv_settled hA h.store.down h.store.silent h.lock.placed hn h.store.recoveryRoom h.store.withdrawalRoom
  refine inv_free (settle_kept h.lock hn).1 (hstore.reply ?_ ?_) rfl
  · intro k hk
    cases hk
  · intro k hk
    exact absurd ht hk.2

theorem FindsRoom.spares {attachments : Dict String AttachmentOperation} (h : FindsRoom service w result now)
    (ht : w.crossingTicket service = some (authorization, ticket)) (hout : result.outcome = .withdrawn)
    (hmake : makeOffer service authorization w.channel ticket result now = some (offer, attachments))
    (hm : offer.made = true) : w.channel.sparesLive ticket.withdrawRequestId = true := by
  simpa [FindsRoom, ht, hout, hmake, hm] using h

theorem inv_noted (h : RecoveryInv w) (hlock : LockInv (w.noteWithdrawn identity result).release) :
    RecoveryInv (w.noteWithdrawn identity result).release := by
  have hwide : StoreInv w.channel (downAfter w.withdrawn identity result) w.history :=
    h.store.wider fun _ ho => mem_downAfter ho
  refine inv_free hlock ?_ rfl
  simpa [World.release, noteWithdrawn_withdrawn, noteWithdrawn_history, noteWithdrawn_channel] using hwide

theorem storeInv_recorded (h : RecoveryInv w) (hd : w.driver = some (.crossing authorization ticket))
    (hok : FindsRoom service w result now)
    (happly : applyWithdrawalResult service authorization w.channel ticket result now = some (record, c, evicted)) :
    StoreInv (c.storeWithdrawal record) (downAfter w.withdrawn ticket.identity result)
      (w.history ++ World.disposals evicted ++ [.replied record.key record.response]) := by
  have hfresh := h.lock.fresh _ ticket hd rfl
  have hD := h.crossing authorization ticket hd
  obtain ⟨hr, hw, hkey⟩ := applyWithdrawalResult_spec happly
  have hwid : record.withdrawRequestId = ticket.withdrawRequestId := congrArg RecoveryKey.withdrawRequestId hkey
  have hticket : w.crossingTicket service = some (authorization, ticket) := by rw [World.crossingTicket, hd]
  obtain ⟨hA, hevicted, hroom⟩ := result_agrees ticket record h.store (h.store.dead_of_fresh hfresh) hD
    (fun offer attachments hout hmake hm => FindsRoom.spares hok hticket hout hmake hm) happly hkey rfl rfl rfl
  have hstore : StoreInv (c.storeWithdrawal record) (downAfter w.withdrawn ticket.identity result) w.history := by
    refine storeInv_settled (fun wid => ?_) (fun k hk => mem_downAfter (h.store.down k hk)) h.store.silent ?_ ?_ hroom ?_
    · rw [retained_congr hr (by rw [hw])]
      exact hA wid
    · exact placed_congr hr hw h.lock.placed
    · rw [hwid, hw, hfresh]
    · rw [hw]
      exact h.store.withdrawalRoom
  apply (hstore.repeated hevicted).reply
  · intro k hk
    cases hk
  intro k hk hmem
  obtain ⟨rfl, -⟩ := hk
  rw [hkey] at hmem
  rcases List.mem_append.mp hmem with hmem | hmem
  · exact hD hmem
  obtain ⟨q, hq, heq⟩ := List.mem_map.mp hmem
  rw [Event.disposed.injEq] at heq
  exact hD (heq ▸ hevicted q hq)

theorem inv_driven (h : RecoveryInv w) (hd : w.driver = some (.crossing authorization ticket))
    (hok : KeepsRecoveries service w (.crossed outcome now)) :
    RecoveryInv (w.driven service authorization ticket outcome now) := by
  have hfresh := h.lock.fresh _ ticket hd rfl
  have hlock : LockInv (w.driven service authorization ticket outcome now) := (driven_kept h.lock hd).1
  have hD := h.crossing authorization ticket hd
  cases outcome with
  | answered result =>
    simp only [World.driven] at hlock ⊢
    split
    · rename_i happly
      rw [happly] at hlock
      exact inv_noted h hlock
    rename_i record c evicted happly
    rw [happly] at hlock
    refine inv_free hlock ?_ rfl
    have hstore := storeInv_recorded h hd hok happly
    simpa [World.settle, World.reply, World.log, noteWithdrawn_withdrawn, noteWithdrawn_history] using hstore
  | epochMismatch => exact inv_settle h hfresh rfl rfl fun hun => by cases hun
  | maybeSent message => exact inv_settle h hfresh rfl rfl fun _ => hD
  | notSent => exact inv_free hlock h.store rfl
  | controlError message => exact inv_free hlock h.store rfl

theorem driving_retained (h : RecoveryInv w) (hd : w.driver = some (.redriving authorization i))
    (hi : w.channel.records[i]? = some record) :
    record.phase = .unknown ∧ w.channel.withdrawals.get? record.withdrawRequestId = some i ∧
      w.channel.retained record.withdrawRequestId = some record := by
  obtain ⟨r, hr, hp⟩ := h.lock.unknown _ _ hd
  rw [hi, Option.some.injEq] at hr
  subst hr
  obtain ⟨r, hr, hplace⟩ := h.driving _ _ hd
  rw [hi, Option.some.injEq] at hr
  subst hr
  exact ⟨hp, hplace, retained_eq_some.mpr ⟨i, hplace, hi⟩⟩

theorem storeInv_overwritten {fresh : WithdrawalRecord} (h : RecoveryInv w)
    (hd : w.driver = some (.redriving authorization i)) (hi : w.channel.records[i]? = some record)
    (hok : FindsRoom service w result now)
    (happly : applyWithdrawalResult service authorization w.channel (redriveTicket service authorization record) result now =
      some (fresh, c, evicted)) :
    StoreInv (c.modifyRecord i fun record => record.overwrite fresh) (downAfter w.withdrawn record.operation result)
      (w.history ++ World.disposals evicted) := by
  obtain ⟨hp, hplace, hret⟩ := driving_retained h hd hi
  obtain ⟨hr, hw, -⟩ := applyWithdrawalResult_spec happly
  have hticket : w.crossingTicket service = some (authorization, redriveTicket service authorization record) := by
    rw [World.crossingTicket, hd]
    simp [hi]
  have hD := (h.store.agrees record.withdrawRequestId).unspent record hret (Or.inr hp)
  obtain ⟨hA, hevicted, hroom⟩ := result_agrees (redriveTicket service authorization record)
    (record.overwrite fresh) h.store (h.store.dead_of_unknown hret hp) hD
    (fun offer attachments hout hmake hm => FindsRoom.spares hok hticket hout hmake hm) happly rfl rfl rfl rfl
  have hnamed : ∀ k x, c.retained k = some x → x.withdrawRequestId = k := by
    intro k x hx
    rw [retained_congr hr (by rw [hw])] at hx
    exact (h.store.agrees k).named x hx
  have hmodified : ∀ wid, (c.modifyRecord i fun record => record.overwrite fresh).retained wid =
      if wid = record.withdrawRequestId then some (record.overwrite fresh) else c.retained wid := fun wid =>
    retained_modifyRecord hnamed (by rw [hw, hplace]) (by rw [hr, hi])
  refine StoreInv.repeated ?_ hevicted
  refine ⟨fun wid => ?_, fun k hk => mem_downAfter (h.store.down k hk), h.store.silent, ?_, hroom⟩
  · rw [hmodified, retained_congr hr (by rw [hw])]
    exact hA wid
  · simp only [Channel.modifyRecord, hw]
    exact h.store.withdrawalRoom

theorem storeInv_detailed (message : String) (h : RecoveryInv w) (hd : w.driver = some (.redriving authorization i))
    (hi : w.channel.records[i]? = some record) :
    StoreInv (w.channel.modifyRecord i fun record => { record with detail := some message }) w.withdrawn w.history := by
  obtain ⟨hp, hplace, hret⟩ := driving_retained h hd hi
  have hA := h.store.agrees record.withdrawRequestId
  have hnone := hA.unsettled record hret hp
  have hsame : ∀ wid, (w.channel.modifyRecord i fun record => { record with detail := some message }).retained wid =
      if wid = record.withdrawRequestId then some { record with detail := some message } else w.channel.retained wid :=
    fun wid => retained_modifyRecord (fun k x hx => (h.store.agrees k).named x hx) hplace hi
  refine ⟨fun wid => ?_, h.store.down, h.store.silent, h.store.withdrawalRoom, h.store.recoveryRoom⟩
  rw [hsame]
  exact h.store.replaced (r := { record with detail := some message }) (h.store.dead_of_unknown hret hp) hnone
    (hA.noText record hret hnone) (fun _ => hA.unspent record hret (Or.inr hp)) wid

theorem inv_redriven (h : RecoveryInv w) (hd : w.driver = some (.redriving authorization i))
    (hi : w.channel.records[i]? = some record) (hok : KeepsRecoveries service w (.crossed outcome now)) :
    RecoveryInv (w.redriven service authorization i record outcome now) := by
  have hlock : LockInv (w.redriven service authorization i record outcome now) :=
    (redriven_kept h.lock hi (driving_retained h hd hi).1).1
  have hreleased : RecoveryInv w.release := inv_free (lockInv_release h.lock) h.store rfl
  cases outcome with
  | answered result =>
    simp only [World.redriven] at hlock ⊢
    split
    · rename_i happly
      rw [happly] at hlock
      exact inv_noted h hlock
    rename_i fresh c evicted happly
    obtain ⟨hr, hw, -⟩ := applyWithdrawalResult_spec happly
    apply inv_project
    refine inv_free (lockInv_free rfl ?_) ?_ rfl
    · exact placed_modifyRecord (placed_congr hr hw h.lock.placed)
    · have hstore := storeInv_overwritten h hd hi hok happly
      simpa [World.release, World.log, noteWithdrawn_withdrawn, noteWithdrawn_history] using hstore
  | epochMismatch => exact hreleased
  | notSent => exact hreleased
  | maybeSent message => exact inv_project hreleased record
  | controlError message =>
    apply inv_project
    refine inv_free (lockInv_free rfl ?_) (storeInv_detailed message h hd hi) rfl
    exact placed_modifyRecord h.lock.placed

/-! ### The calls -/

theorem inv_enter (h : RecoveryInv w)
    (hx : ∀ a i, x = .reconcile a i → ∃ r, w.channel.records[i]? = some r ∧ r.phase = .unknown ∧
      w.channel.withdrawals.get? r.withdrawRequestId = some i) : RecoveryInv (w.enter x) := by
  have hlock : LockInv (w.enter x) := by
    apply lockInv_enter h.lock
    intro a i heq
    obtain ⟨r, hr, hp, -⟩ := hx a i heq
    exact ⟨r, hr, hp⟩
  cases x with
  | withdraw authorization ticket =>
    simp only [World.enter] at hlock ⊢
    cases hw : w.channel.withdrawal ticket.withdrawRequestId with
    | none =>
      rw [hw] at hlock
      exact ⟨hlock, h.store, fun a i hd => (by cases hd), fun a t hd => (by cases hd)⟩
    | some found =>
      obtain ⟨i, r⟩ := found
      dsimp only
      split
      · exact h
      · exact inv_replay h (retained_of_withdrawal hw)
  | reconcile authorization i =>
    refine ⟨hlock, h.store, fun a j hd => ?_, fun a t hd => (by cases hd)⟩
    cases hd
    obtain ⟨r, hr, -, hplace⟩ := hx _ _ rfl
    exact ⟨r, hr, hplace⟩

theorem inv_awaitLock (h : RecoveryInv w)
    (hx : ∀ a i, x = .reconcile a i → ∃ r, w.channel.records[i]? = some r ∧ r.phase = .unknown ∧
      w.channel.withdrawals.get? r.withdrawRequestId = some i) : RecoveryInv (w.awaitLock x) := by
  unfold World.awaitLock
  split
  · exact inv_enter h hx
  · exact inv_quiet h (quiet_of_eq rfl fun _ => rfl) rfl h.store fun _ hk => Or.inl hk

theorem inv_withdraw (h : RecoveryInv w) (authorization : AuthorizationBinding) (identity : OperationIdentity)
    (operationRef wid : String) : RecoveryInv (w.withdraw service authorization identity operationRef wid) := by
  unfold World.withdraw
  cases hw : w.channel.withdrawal wid with
  | none =>
    apply inv_awaitLock h
    intro a i hx
    cases hx
  | some found =>
    obtain ⟨i, r⟩ := found
    dsimp only
    split
    · exact h
    have hsame : (w.channel.moveToEnd wid).retained wid = w.channel.retained wid :=
      retained_congr rfl (Dict.get?_moveToEnd _ _ _)
    have hr : (w.channel.moveToEnd wid).retained wid = some r := by rw [hsame, retained_of_withdrawal hw]
    exact inv_replay (inv_moveToEnd h wid) hr

theorem inv_withdrawStatus (h : RecoveryInv w) (authorization : AuthorizationBinding) (identity : OperationIdentity)
    (wid : String) (reconcile : Bool) : RecoveryInv (w.withdrawStatus authorization identity wid reconcile) := by
  unfold World.withdrawStatus
  cases hw : w.channel.withdrawal wid with
  | none => exact h
  | some found =>
    obtain ⟨i, r⟩ := found
    dsimp only
    split
    · exact h
    have hmoved := inv_moveToEnd h wid
    split
    · rename_i hp
      apply inv_awaitLock hmoved
      intro a j hx
      cases hx
      obtain ⟨hi, hr⟩ := withdrawal_eq_some hw
      refine ⟨r, hr, hp.2, ?_⟩
      have hname := (h.store.agrees wid).named r (retained_of_withdrawal hw)
      rw [hname]
      exact (Dict.get?_moveToEnd _ _ _).trans hi
    · exact inv_project hmoved r

theorem inv_fetchRecovery (h : RecoveryInv w) (recoveryRef : String) : RecoveryInv (w.fetchRecovery recoveryRef) := by
  unfold World.fetchRecovery
  cases hf : w.channel.findRecovery recoveryRef with
  | none => exact h
  | some found =>
    obtain ⟨key, q⟩ := found
    have hq : w.channel.recoveries.get? key = some q := Dict.get?_eq_some.mpr (List.mem_of_find?_eq_some hf)
    cases ht : q.text with
    | none => simpa only [ht] using h
    | some text =>
      by_cases hl : q.live = true
      · simp only [ht, hl, if_true]
        apply inv_reply h
        · intro k hk
          cases hk
        intro k hk
        obtain ⟨rfl, -⟩ := hk
        have hA := h.store.agrees key
        rw [hq] at hA
        obtain ⟨r, hr, hun, hkey⟩ := hA.unack_of_live hl
        rw [← hkey]
        exact hA.unspent r hr (Or.inl hun)
      · simp only [ht, hl]
        exact h

theorem refusal_eq_none (h : refusal ticket items = none) :
    ∃ row ∈ items, row.identity = ticket.identity ∧ row.state = .queued := by
  unfold refusal at h
  split at h
  · cases h
  rename_i row hrow
  obtain ⟨hlive, -⟩ := Option.filter_eq_some_iff.mp hrow
  have hfound := List.find?_some hlive
  simp only [decide_eq_true_eq] at hfound
  split at h
  · rename_i hq
    exact ⟨row, List.mem_of_find?_eq_some hlive, hfound.1, hq⟩
  · cases h

theorem inv_timeline (h : RecoveryInv w) (hs : w.timeline items = some w') : RecoveryInv w' := by
  have hlock := (timeline_kept h.lock hs).1
  unfold World.timeline at hs
  split at hs
  · cases hs
  rename_i hlisted
  split at hs
  · rename_i authorization ticket hd
    have hfresh := h.lock.fresh _ ticket hd rfl
    split at hs
    · rename_i failure hf
      cases hs
      have hwid : failure.withdrawRequestId = ticket.withdrawRequestId :=
        congrArg RecoveryKey.withdrawRequestId (refusal_key hf)
      unfold refusal at hf
      split at hf
      · cases hf
        exact inv_settle h hfresh rfl rfl fun hun => (by cases hun)
      split at hf
      · cases hf
      · cases hf
        exact inv_settle h hfresh rfl rfl fun hun => (by cases hun)
    · rename_i hnone
      cases hs
      refine ⟨hlock, h.store, fun a i hd' => (by cases hd'), fun a t hd' hmem => ?_⟩
      cases hd'
      -- a row that is listed as queued was never reported as withdrawn
      obtain ⟨row, hrow, hid, hq⟩ := refusal_eq_none hnone
      apply hlisted
      rw [List.any_eq_true]
      refine ⟨row, hrow, ?_⟩
      rw [decide_eq_true_eq, hid]
      exact ⟨hq, h.store.down _ hmem⟩
  · cases hs

theorem inv_crossed (h : RecoveryInv w) (hok : KeepsRecoveries service w (.crossed outcome now))
    (hs : w.crossed service outcome now = some w') : RecoveryInv w' := by
  unfold World.crossed at hs
  split at hs
  · rename_i authorization ticket hd
    cases hs
    exact inv_driven h hd hok
  · rename_i authorization i hd
    obtain ⟨record, hi, rfl⟩ := Option.map_eq_some_iff.mp hs
    exact inv_redriven h hd hi hok
  · cases hs

theorem inv_acquire (h : RecoveryInv w) (hok : FindsRetained w) (hs : w.acquire = some w') : RecoveryInv w' := by
  unfold World.acquire at hs
  split at hs
  · rename_i waiter rest hd hwait
    cases hs
    have hpopped : RecoveryInv { w with waiting := rest } :=
      inv_quiet h (quiet_of_eq rfl fun _ => rfl) rfl h.store fun _ hk => Or.inl hk
    apply inv_enter hpopped
    intro a i hx
    subst hx
    simp only [FindsRetained, hwait, Option.any_eq_true, decide_eq_true_eq] at hok
    exact hok
  · cases hs

theorem inv_step {a : Action} (h : RecoveryInv w) (hok : KeepsRecoveries service w a)
    (hs : World.step service w a = some w') :
    RecoveryInv w' := by
  cases a with
  | withdraw authorization identity operationRef wid now =>
    cases hs
    exact inv_withdraw (inv_sweep h now) authorization identity operationRef wid
  | withdrawStatus authorization identity wid reconcile now =>
    cases hs
    exact inv_withdrawStatus (inv_sweep h now) authorization identity wid reconcile
  | fetchRecovery recoveryRef now =>
    cases hs
    exact inv_fetchRecovery (inv_sweep h now) recoveryRef
  | acknowledgeRecovery recoveryRef disposition now =>
    cases hs
    exact inv_acknowledge (inv_sweep h now) recoveryRef disposition
  | sweep now =>
    cases hs
    exact inv_sweep h now
  | acquire => exact inv_acquire h hok hs
  | cancelWaiter position =>
    cases hs
    exact inv_quiet h (quiet_of_eq rfl fun _ => rfl) rfl h.store fun _ hk => Or.inl hk
  | timeline items => exact inv_timeline h hs
  | crossed outcome now => exact inv_crossed h hok hs
  | abandon =>
    obtain ⟨d, -, rfl⟩ := Option.map_eq_some_iff.mp hs
    exact inv_free (lockInv_release h.lock) h.store rfl
  | submits journal attachments =>
    cases hs
    have hq : Quiet w.channel { w.channel with journal := journal, attachments := attachments } :=
      quiet_of_eq rfl fun _ => rfl
    exact inv_quiet h hq rfl (h.store.congr rfl (fun _ => rfl) rfl rfl) fun _ hk => Or.inl hk
  | rowWithdrawn identity =>
    cases hs
    exact inv_quiet h (quiet_of_eq rfl fun _ => rfl) rfl (h.store.wider fun o ho => List.mem_append_left _ ho)
      fun _ hk => Or.inl hk

theorem inv_init : RecoveryInv World.init := by
  refine inv_free lockInv_init ⟨fun wid => agrees_none, ?_, fun k => neverAfter_nil, Nat.zero_le _, Nat.zero_le _⟩ rfl
  intro k hk
  cases hk

/-- **Withdrawals and recoveries agree**, in every run in which no live recovery is evicted and each reconcile that waited
for the session lock finds its record still retained and unsettled. -/
theorem recovery_agrees (service : Service) {w : World}
    (h : Reachable (withdrawalSystem service) (KeepsRecoveries service) w) : RecoveryAgrees w := by
  have hinv : RecoveryInv w := h.invariant inv_init fun s a t hi hok hs => inv_step hi hok hs
  exact ⟨fun wid r hr => (hinv.store.agrees wid).state r hr, hinv.store.silent⟩

end

/-- The recovery is fetched and acknowledged, and the withdrawal is asked for once more. -/
def fetchedThenReplayed : List Action :=
  lostThenReconciled ++ [.fetchRecovery "r:request-1:withdraw-1:" "2026-08-01T10:00:03+00:00", acknowledge,
    .withdraw operator prompt "o:1" "withdraw-1" "2026-08-01T10:00:04+00:00"]

theorem replayed_after_acknowledgement :
    ∃ w, checkedRun (withdrawalSystem plainService) (KeepsRecoveries plainService) World.init fetchedThenReplayed = some w ∧
      RecoveryAgrees w := by
  obtain ⟨w, hw⟩ : ∃ w, checkedRun (withdrawalSystem plainService) (KeepsRecoveries plainService) World.init
      fetchedThenReplayed = some w := Option.isSome_iff_exists.mp (by decide)
  exact ⟨w, hw, recovery_agrees plainService (steps_of_checkedRun hw)⟩

def withdrawPrompt (n : Nat) : List Action :=
  [.withdraw operator ⟨"prompt", toString n, n⟩ "o:1" (toString n) "2026-08-01",
    .timeline [⟨toString n, .prompt, some .cockpit, .queued, n⟩],
    .crossed (.answered ⟨toString n, .withdrawn, some .withdrawn, some "2026-08-01", none, some ⟨some "the prompt", []⟩⟩)
      "2026-08-01"]

def oneTooMany : List Action := (List.range (maxRecoveriesPerChannel + 1)).flatMap withdrawPrompt

set_option maxRecDepth 100000 in
theorem oneTooMany_evicts :
    (runFrom (withdrawalSystem plainService) World.init oneTooMany).any (fun w =>
      (w.channel.retained "0").any (fun r => r.recoveryState = .recoveryUnacknowledged) &&
        (w.channel.recoveries.get? "0").isNone) = true := by decide +kernel

/-- The withdrawal of the evicted recovery still says that it waits for an acknowledgement. -/
theorem evicted_still_unacknowledged :
    ¬ ∀ w : World, Reachable (withdrawalSystem plainService) always w → RecoveryAgrees w := by
  intro hall
  obtain ⟨w, hw, hcheck⟩ := (Option.any_eq_true _ _).mp oneTooMany_evicts
  obtain ⟨hretained, hnone⟩ := Bool.and_eq_true_iff.mp hcheck
  obtain ⟨r, hr, hun⟩ := (Option.any_eq_true _ _).mp hretained
  obtain ⟨q, hq, -⟩ := ((hall w (reachable_of_runFrom hw)).state "0" r hr).mp (of_decide_eq_true hun)
  rw [hq] at hnone
  cases hnone

end AgentsRemember.Control
