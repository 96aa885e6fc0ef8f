import AgentsRemember.Catalog.Evidence

/-!
# What one read of terminal evidence leaves

`SessionOk` ties a row's cursors and its outcome to what the lift mapped: the
frames up to the cursor, and the newest outcome among them. A read of a whole
page keeps it, once the row has taken the read's cursors and its outcome.
-/

namespace AgentsRemember.Catalog

open Lib

/-! ## The newest outcome -/

section
variable {F : Type} {projections : F → Option (List TerminalEvidenceProjection)}

def outcomes (projections : F → Option (List TerminalEvidenceProjection)) (f : F) : List TerminalEvidenceProjection :=
  (projections f).getD []

def newest (projections : F → Option (List TerminalEvidenceProjection)) (fs : List F) : Option TerminalEvidenceProjection :=
  (fs.flatMap (outcomes projections)).getLast?

attribute [local simp] newest

theorem newest_append (fs gs : List F) : newest projections (fs ++ gs) = (newest projections gs).or (newest projections fs) := by
  rw [newest, List.flatMap_append, List.getLast?_append]
  rfl

theorem newest_cons (f : F) (fs : List F) :
    newest projections (f :: fs) = (newest projections fs).or (outcomes projections f).getLast? := by
  rw [newest, List.flatMap_cons, List.getLast?_append]
  rfl

variable {fs : List F}

theorem newest_eq_none (h : newest projections fs = none) : ∀ f ∈ fs, outcomes projections f = [] := by
  rw [newest, List.getLast?_eq_none_iff, List.flatMap_eq_nil_iff] at h
  exact h

theorem newest_spec {t : TerminalEvidenceProjection} (h : newest projections fs = some t) :
    ∃ l₁ g l₂, fs = l₁ ++ g :: l₂ ∧ t ∈ outcomes projections g ∧ ∀ f ∈ l₂, outcomes projections f = [] := by
  induction fs with
  | nil => cases h
  | cons f fs ih =>
    rw [newest_cons] at h
    cases hrest : newest projections fs with
    | some t' =>
      rw [hrest, Option.some_or] at h
      cases h
      obtain ⟨l₁, g, l₂, rfl, ht, hl₂⟩ := ih hrest
      exact ⟨f :: l₁, g, l₂, rfl, ht, hl₂⟩
    | none =>
      rw [hrest, Option.none_or] at h
      exact ⟨[], f, fs, rfl, List.mem_of_getLast? h, newest_eq_none hrest⟩

theorem newest_after {f : F} (hf : f ∈ fs) (ho : outcomes projections f ≠ []) :
    ∃ t l₁ g l₂, newest projections fs = some t ∧ fs = l₁ ++ g :: l₂ ∧ t ∈ outcomes projections g ∧ f ∈ l₁ ++ [g] := by
  cases hnew : newest projections fs with
  | none => exact absurd (newest_eq_none hnew f hf) ho
  | some t =>
    obtain ⟨l₁, g, l₂, rfl, ht, hl₂⟩ := newest_spec hnew
    refine ⟨t, l₁, g, l₂, rfl, rfl, ht, ?_⟩
    rcases List.mem_append.mp hf with h | h
    · exact List.mem_append_left _ h
    rcases List.mem_cons.mp h with rfl | h
    · simp
    · exact absurd (hl₂ f h) ho

end

variable {p : Option Projector} {wireBytes : EvidenceFrame → Nat} {after : Int} {limit budget : Nat} {b : Bridge}

theorem latestTerminalEvidence_eq : ∀ {fs : List EvidenceFrame} {latest : Option TerminalEvidenceProjection},
    (∀ f ∈ fs, (evidenceProjections p f).isSome = true) →
    latestTerminalEvidence p fs latest = some ((newest (evidenceProjections p) fs).or latest)
  | [], latest, _ => rfl
  | f :: fs, latest, h => by
    obtain ⟨outputs, hf⟩ := Option.isSome_iff_exists.mp (h f (by simp))
    rw [latestTerminalEvidence, hf, newest_cons, Option.or_assoc]
    dsimp only
    rw [latestTerminalEvidence_eq fun g hg => h g (List.mem_cons_of_mem _ hg), outcomes, hf, Option.getD_some]

theorem latestNativeTerminalEvidence_eq : ∀ {fs : List NativeEvidenceFrame}
    {latest : Option TerminalEvidenceProjection},
    latestNativeTerminalEvidence p fs latest = (newest (nativeProjections p) fs).or latest
  | [], latest => rfl
  | f :: fs, latest => by
    rw [latestNativeTerminalEvidence, newest_cons, Option.or_assoc]
    cases hf : nativeProjections p f with
    | none => rw [latestNativeTerminalEvidence_eq, outcomes, hf, Option.getD_none, List.getLast?_nil, Option.none_or]
    | some outputs =>
      dsimp only
      rw [latestNativeTerminalEvidence_eq, outcomes, hf, Option.getD_some]

/-! ## Pages -/

def unread (afterSequence : Int) (evidence : List EvidenceFrame) : List EvidenceFrame :=
  evidence.filter fun f => afterSequence < f.sequence

def FitsPage (wireBytes : EvidenceFrame → Nat) (fs : List EvidenceFrame) : Prop :=
  fs.length ≤ evidencePageLimit ∧ (fs.length ≤ 1 ∨ (fs.map wireBytes).sum ≤ evidencePageByteBudget)

theorem pageFrames_of_uncut :
    ∀ {evidence frames : List EvidenceFrame} {used : Nat},
      (Bridge.pageFrames wireBytes after limit budget evidence frames used).2 = false →
      (Bridge.pageFrames wireBytes after limit budget evidence frames used).1 = frames ++ unread after evidence
  | [], frames, used, _ => by rw [Bridge.pageFrames, unread, List.filter_nil, List.append_nil]
  | f :: rest, frames, used, h => by
    rw [Bridge.pageFrames] at h ⊢
    by_cases hread : f.sequence ≤ after
    · rw [if_pos hread] at h ⊢
      rw [pageFrames_of_uncut h, unread, unread, List.filter_cons_of_neg (by simpa using hread)]
    rw [if_neg hread] at h ⊢
    split at h
    · cases h
    rename_i hfits
    rw [if_neg hfits, pageFrames_of_uncut h, unread, unread, List.filter_cons_of_pos (by simpa using hread),
      List.append_assoc]
    rfl

theorem pageFrames_cut_iff :
    ∀ {evidence frames : List EvidenceFrame} {used : Nat}, used = (frames.map wireBytes).sum → frames ≠ [] →
      ((Bridge.pageFrames wireBytes after limit budget evidence frames used).2 = false ↔
        unread after evidence = [] ∨ (frames.length + (unread after evidence).length ≤ limit ∧
          used + ((unread after evidence).map wireBytes).sum ≤ budget))
  | [], frames, used, _, _ => by simp [Bridge.pageFrames, unread]
  | f :: rest, frames, used, hused, hne => by
    rw [Bridge.pageFrames]
    by_cases hread : f.sequence ≤ after
    · rw [if_pos hread, pageFrames_cut_iff hused hne, unread, unread, List.filter_cons_of_neg (by simpa using hread)]
    rw [if_neg hread]
    have hunread : unread after (f :: rest) = f :: unread after rest := List.filter_cons_of_pos (by simpa using hread)
    rw [hunread]
    simp only [List.length_cons, List.map_cons, List.sum_cons, reduceCtorEq, false_or]
    split
    · rename_i hcut
      simp only [Bool.true_eq_false, false_iff]
      rcases hcut with h | ⟨-, h⟩ <;> omega
    rename_i hfits
    rw [pageFrames_cut_iff (by simp [hused]) (by simp)]
    simp only [not_or, not_and, not_lt, List.length_append, List.length_singleton] at hfits ⊢
    obtain ⟨hlen, hbytes⟩ := hfits
    have := hbytes hne
    constructor
    · rintro (hnil | h)
      · simp only [hnil, List.length_nil, List.map_nil, List.sum_nil]
        omega
      · omega
    · exact fun h => .inr (by omega)

theorem page_truncated_iff :
    (b.page wireBytes after).truncated = false ↔ FitsPage wireBytes (unread after b.evidence) := by
  have hstart : ∀ evidence : List EvidenceFrame,
      (Bridge.pageFrames wireBytes after evidencePageLimit evidencePageByteBudget evidence [] 0).2 = false ↔
        FitsPage wireBytes (unread after evidence) := by
    intro evidence
    induction evidence with
    | nil => simp [Bridge.pageFrames, unread, FitsPage]
    | cons f rest ih =>
      rw [Bridge.pageFrames]
      by_cases hread : f.sequence ≤ after
      · rw [if_pos hread, ih, unread, unread, List.filter_cons_of_neg (by simpa using hread)]
      have hunread : unread after (f :: rest) = f :: unread after rest := List.filter_cons_of_pos (by simpa using hread)
      rw [if_neg hread, if_neg (by simp [evidencePageLimit]), pageFrames_cut_iff (by simp) (by simp), hunread, FitsPage]
      simp only [evidencePageLimit, List.nil_append, List.length_cons, List.length_nil, List.map_cons, List.sum_cons]
      constructor
      · rintro (hnil | h)
        · simp [hnil]
        · exact ⟨by omega, .inr (by omega)⟩
      rintro ⟨hlen, h | h⟩
      · exact .inl (List.length_eq_zero_iff.mp (by omega))
      · exact .inr ⟨by omega, by omega⟩
  exact hstart b.evidence

theorem page_frames_of_fits (h : FitsPage wireBytes (unread after b.evidence)) :
    (b.page wireBytes after).frames = unread after b.evidence := by
  have hcut := page_truncated_iff.mpr h
  exact (pageFrames_of_uncut hcut).trans (List.nil_append _)

theorem entriesAfter_append {l₁ l₂ : List NativeEvidenceFrame} (hn : ((l₁ ++ l₂).map NativeEvidenceFrame.nativeId).Nodup) :
    entriesAfter (l₁.getLast?.map NativeEvidenceFrame.nativeId) (l₁ ++ l₂) = some l₂ := by
  rcases List.eq_nil_or_concat' l₁ with rfl | ⟨l, last, rfl⟩
  · cases l₂ <;> rfl
  rw [List.getLast?_concat, Option.map_some]
  induction l with
  | nil => simp [entriesAfter]
  | cons f l ih =>
    have hne : f.nativeId ≠ last.nativeId := by
      intro h
      simp only [List.cons_append, List.append_assoc, List.map_cons, List.nodup_cons] at hn
      exact hn.1 (by simp [h])
    rw [List.cons_append, List.cons_append, entriesAfter, if_neg hne]
    exact ih (List.nodup_cons.mp hn).2

theorem nativeWindow_append {size : NativeEvidenceFrame → Nat} :
    ∀ {entries selected : List NativeEvidenceFrame} {used : Nat},
      (nativeWindow size limit budget entries selected used).1 ++ (nativeWindow size limit budget entries selected used).2 =
        selected ++ entries
  | [], selected, _ => rfl
  | f :: rest, selected, used => by
    rw [nativeWindow]
    split
    · rfl
    · rw [nativeWindow_append, List.append_assoc]
      rfl

theorem nativeWalk_spec {c : EvidenceConfig} {entries : List NativeEvidenceFrame}
    (hn : (entries.map NativeEvidenceFrame.nativeId).Nodup) (pages : Nat) : ∀ (seen left mapped : List NativeEvidenceFrame)
      (terminal : Option TerminalEvidenceProjection), entries = seen ++ left →
      ∃ more left', entries = seen ++ more ++ left' ∧
        nativeWalk c entries pages (seen.getLast?.map NativeEvidenceFrame.nativeId)
            ⟨terminal, seen.getLast?.map NativeEvidenceFrame.nativeId, mapped⟩ =
          some ⟨(newest (nativeProjections (c.projectorFor "pi")) more).or terminal,
            (seen ++ more).getLast?.map NativeEvidenceFrame.nativeId, mapped ++ more⟩ := by
  induction pages with
  | zero => exact fun seen left mapped terminal h => ⟨[], left, by simpa using h, by simp [nativeWalk, newest]⟩
  | succ pages ih =>
    intro seen left mapped terminal h
    have hafter : entriesAfter (seen.getLast?.map NativeEvidenceFrame.nativeId) entries = some left := by
      rw [h] at hn ⊢
      exact entriesAfter_append hn
    rw [nativeWalk, hafter]
    dsimp only
    have hwindow : (nativeWindow c.nativeWireBytes nativePageLimit evidencePageByteBudget left [] 0).1 ++
        (nativeWindow c.nativeWireBytes nativePageLimit evidencePageByteBudget left [] 0).2 = [] ++ left :=
      nativeWindow_append
    generalize nativeWindow c.nativeWireBytes nativePageLimit evidencePageByteBudget left [] 0 = window at hwindow ⊢
    obtain ⟨frames, rest⟩ := window
    dsimp only [List.nil_append] at hwindow ⊢
    rw [latestNativeTerminalEvidence_eq, Option.or_none]
    rw [← hwindow, ← List.append_assoc] at h
    rcases List.eq_nil_or_concat' frames with rfl | ⟨init, last, rfl⟩
    · exact ⟨[], rest, h, by simp [newest]⟩
    rw [List.getLast?_concat]
    dsimp only
    by_cases hrest : rest = []
    · rw [if_pos hrest]
      refine ⟨init ++ [last], rest, h, ?_⟩
      rw [← List.append_assoc seen, List.getLast?_concat, Option.map_some]
    rw [if_neg hrest]
    obtain ⟨more, left', hentries, hwalk⟩ := ih (seen ++ (init ++ [last])) rest (mapped ++ (init ++ [last]))
      ((newest (nativeProjections (c.projectorFor "pi")) (init ++ [last])).or terminal) h
    rw [← List.append_assoc seen init [last], List.getLast?_concat, Option.map_some] at hwalk
    refine ⟨init ++ [last] ++ more, left', by rw [hentries]; simp, ?_⟩
    rw [hwalk, newest_append (init ++ [last]) more, Option.or_assoc]
    simp

/-! ## A row and its evidence -/

structure Shows (e : TerminalCatalogEntry) (t : TerminalEvidenceProjection) : Prop where
  outcome : e.terminal.outcome = some t.evidence.outcome
  evidenceId : e.terminal.evidenceId = some t.evidenceId
  observedAt : e.terminal.outcomeAt = some t.observedAt

def projectionsOf (c : EvidenceConfig) (e : TerminalCatalogEntry) : EvidenceFrame → Option (List TerminalEvidenceProjection) :=
  evidenceProjections (e.harness.bind c.projectorFor)

def nativeProjectionsOf (c : EvidenceConfig) (e : TerminalCatalogEntry) :
    NativeEvidenceFrame → Option (List TerminalEvidenceProjection) :=
  nativeProjections (e.harness.bind c.projectorFor)

structure BridgeOk (v : SessionEvidence) : Prop where
  sorted : v.recorded.Pairwise fun f g => f.sequence < g.sequence
  bounded : ∀ f ∈ v.recorded, 0 < f.sequence ∧ f.sequence ≤ v.bridge.latestSequence
  evicted : ∃ evicted, v.recorded = evicted ++ v.bridge.evidence ∧ ∀ f ∈ evicted, f.sequence ≤ v.bridge.evictedBeforeSequence
  identified : (v.entries.map NativeEvidenceFrame.nativeId).Nodup

structure SessionOk (c : EvidenceConfig) (e : TerminalCatalogEntry) (v : SessionEvidence) : Prop extends BridgeOk v where
  cursor : cursorOf e ≤ v.bridge.latestSequence
  examined : v.examined = v.recorded.filter fun f => f.sequence ≤ cursorOf e
  offered : ∀ f ∈ v.offered, f ∈ v.examined
  shows : ∀ t, newest (projectionsOf c e) v.examined = some t → Shows e t
  nativeCursor : e.terminalNativeCursor = v.examinedEntries.getLast?.map NativeEvidenceFrame.nativeId
  examinedEntries : ∃ left, v.entries = v.examinedEntries ++ left
  showsEntries : ∀ t, newest (nativeProjectionsOf c e) v.examinedEntries = some t → Shows e t
  oneSource : if e.harness = some "pi" then v.examined = [] else v.examinedEntries = []

structure Takes (r : TerminalEvidenceRead) (e e' : TerminalCatalogEntry) : Prop where
  harness : e'.harness = e.harness
  sequence : e'.terminalEvidenceSequence = r.evidenceSequence.or e.terminalEvidenceSequence
  nativeCursor : e'.terminalNativeCursor = r.nativeCursor.or e.terminalNativeCursor
  terminal : ∀ t, r.projection = some t → Shows e' t
  kept : r.projection = none → e'.terminal = e.terminal

structure PageWhole (c : EvidenceConfig) (e : TerminalCatalogEntry) (b : Bridge) : Prop where
  kept : b.evictedBeforeSequence ≤ cursorOf e
  fits : FitsPage c.wireBytes (unread (cursorOf e) b.evidence)
  mapped : ∀ f ∈ unread (cursorOf e) b.evidence, (projectionsOf c e f).isSome = true

variable {c : EvidenceConfig} {e e' : TerminalCatalogEntry} {v v' : SessionEvidence} {r : TerminalEvidenceRead}

theorem SessionOk.fresh {entries : List NativeEvidenceFrame} (hn : (entries.map NativeEvidenceFrame.nativeId).Nodup)
    (hsequence : e.terminalEvidenceSequence = none) (hcursor : e.terminalNativeCursor = none) :
    SessionOk c e { entries := entries } where
  sorted := .nil
  bounded := nofun
  evicted := ⟨[], rfl, nofun⟩
  identified := hn
  cursor := by simp [cursorOf, hsequence, Bridge.latestSequence]
  examined := rfl
  offered := nofun
  shows := nofun
  nativeCursor := hcursor
  examinedEntries := ⟨entries, rfl⟩
  showsEntries := nofun
  oneSource := by split <;> rfl

theorem SessionOk.congr (h : SessionOk c e v) (hharness : e'.harness = e.harness)
    (hsequence : e'.terminalEvidenceSequence = e.terminalEvidenceSequence)
    (hcursor : e'.terminalNativeCursor = e.terminalNativeCursor) (hterminal : e'.terminal = e.terminal) :
    SessionOk c e' v := by
  have hshows : ∀ t, Shows e t → Shows e' t := fun t ht => by
    refine ⟨?_, ?_, ?_⟩ <;> rw [hterminal]
    · exact ht.outcome
    · exact ht.evidenceId
    · exact ht.observedAt
  have hcursorOf : cursorOf e' = cursorOf e := by rw [cursorOf, hsequence, cursorOf]
  have hprojections : projectionsOf c e' = projectionsOf c e := by rw [projectionsOf, hharness, projectionsOf]
  have hnative : nativeProjectionsOf c e' = nativeProjectionsOf c e := by rw [nativeProjectionsOf, hharness, nativeProjectionsOf]
  exact
    { h with
      cursor := hcursorOf ▸ h.cursor
      examined := hcursorOf ▸ h.examined
      shows := fun t ht => hshows t (h.shows t (hprojections ▸ ht))
      nativeCursor := hcursor.trans h.nativeCursor
      showsEntries := fun t ht => hshows t (h.showsEntries t (hnative ▸ ht))
      oneSource := by rw [hharness]; exact h.oneSource }

theorem filter_le_append_unread {after : Int} : ∀ {evidence : List EvidenceFrame},
    evidence.Pairwise (fun f g => f.sequence < g.sequence) →
      evidence.filter (fun f => f.sequence ≤ after) ++ unread after evidence = evidence
  | [], _ => rfl
  | f :: rest, h => by
    obtain ⟨hf, hrest⟩ := List.pairwise_cons.mp h
    by_cases hread : f.sequence ≤ after
    · rw [unread, List.filter_cons_of_pos (by simpa using hread), List.filter_cons_of_neg (by simpa using hread),
        List.cons_append, ← unread, filter_le_append_unread hrest]
    have hnone : (f :: rest).filter (fun f => f.sequence ≤ after) = [] := by
      refine List.filter_eq_nil_iff.mpr fun g hg => ?_
      rcases List.mem_cons.mp hg with rfl | hg
      · simpa using hread
      have := hf g hg
      simp only [decide_eq_true_eq]
      omega
    have hall : unread after (f :: rest) = f :: rest := by
      refine List.filter_eq_self.mpr fun g hg => ?_
      rcases List.mem_cons.mp hg with rfl | hg
      · simpa using hread
      have := hf g hg
      simp only [decide_eq_true_eq]
      omega
    rw [hnone, hall, List.nil_append]

theorem examined_append_unread (h : SessionOk c e v) (hkept : v.bridge.evictedBeforeSequence ≤ cursorOf e) :
    v.examined ++ unread (cursorOf e) v.bridge.evidence = v.recorded := by
  obtain ⟨evicted, hrecorded, hevicted⟩ := h.evicted
  have hall : evicted.filter (fun f => f.sequence ≤ cursorOf e) = evicted :=
    List.filter_eq_self.mpr fun f hf => by simpa using (hevicted f hf).trans hkept
  have hsorted := h.sorted
  rw [hrecorded, List.pairwise_append] at hsorted
  rw [h.examined, hrecorded, List.filter_append, hall, List.append_assoc, filter_le_append_unread hsorted.2.1]

theorem Takes.shows_kept (h : Takes r e e') (hnone : r.projection = none) {t : TerminalEvidenceProjection} (ht : Shows e t) :
    Shows e' t := by
  refine ⟨?_, ?_, ?_⟩ <;> rw [h.kept hnone]
  · exact ht.outcome
  · exact ht.evidenceId
  · exact ht.observedAt

theorem Takes.shows_newest {F : Type} {projections : F → Option (List TerminalEvidenceProjection)} {old more : List F}
    (h : Takes r e e') (hr : r.projection = newest projections more)
    (hold : ∀ t, newest projections old = some t → Shows e t) :
    ∀ t, newest projections (old ++ more) = some t → Shows e' t := by
  intro t ht
  rw [newest_append] at ht
  cases hmore : newest projections more with
  | some t' =>
    rw [hmore, Option.some_or] at ht
    exact h.terminal t (hr.trans (hmore.trans ht))
  | none =>
    rw [hmore, Option.none_or] at ht
    exact h.shows_kept (hr.trans hmore) (hold t ht)

structure ReadOk (c : EvidenceConfig) (e : TerminalCatalogEntry) (v : SessionEvidence) (reply : EvidenceReply)
    (v' : SessionEvidence) : Prop where
  mapped : reply ≠ .raised
  failed : reply = .failed → v' = v
  read : ∀ r, reply = .read r → ∀ e', Takes r e e' → SessionOk c e' v'

theorem SessionOk.readPage (h : SessionOk c e v) {harness : String} (hharness : e.harness = some harness)
    (hpi : harness ≠ "pi") (hwhole : PageWhole c e v.bridge) (ht : Takes
      ⟨newest (projectionsOf c e) (unread (cursorOf e) v.bridge.evidence), some v.bridge.latestSequence, none⟩ e e') :
    SessionOk c e' { v with
      examined := v.examined ++ unread (cursorOf e) v.bridge.evidence
      offered := v.offered ++ v.bridge.evidence } := by
  have hall := examined_append_unread h hwhole.kept
  have hcursor : cursorOf e' = v.bridge.latestSequence := by
    rw [cursorOf, ht.sequence, Option.some_or, Option.getD_some]
  have hprojections : projectionsOf c e' = projectionsOf c e := by rw [projectionsOf, ht.harness, projectionsOf]
  have hentries : v.examinedEntries = [] := by
    have := h.oneSource
    rwa [if_neg (by rw [hharness]; simpa using hpi)] at this
  refine
    { sorted := h.sorted
      bounded := h.bounded
      evicted := h.evicted
      identified := h.identified
      cursor := hcursor.le
      examined := ?_
      offered := fun f hf => ?_
      shows := ?_
      nativeCursor := ht.nativeCursor.trans h.nativeCursor
      examinedEntries := h.examinedEntries
      showsEntries := fun t hnew => by simp [hentries, newest] at hnew
      oneSource := ?_ }
  · show v.examined ++ unread (cursorOf e) v.bridge.evidence = v.recorded.filter fun f => f.sequence ≤ cursorOf e'
    rw [hall, hcursor, List.filter_eq_self.mpr fun f hf => by simpa using (h.bounded f hf).2]
  · show f ∈ v.examined ++ unread (cursorOf e) v.bridge.evidence
    rcases List.mem_append.mp hf with hf | hf
    · exact List.mem_append_left _ (h.offered f hf)
    obtain ⟨evicted, hrecorded, -⟩ := h.evicted
    rw [hall, hrecorded]
    exact List.mem_append_right _ hf
  · rw [hprojections]
    exact ht.shows_newest rfl h.shows
  · rw [ht.harness, hharness, if_neg (by simpa using hpi)]
    exact hentries

theorem SessionOk.readEntries (h : SessionOk c e v) (hharness : e.harness = some "pi") :
    ∃ w, nativeWalk c v.entries maxNativeLiftPages e.terminalNativeCursor ⟨none, e.terminalNativeCursor, []⟩ = some w ∧
      ∀ e', Takes ⟨w.terminal, none, w.lastId⟩ e e' →
        SessionOk c e' { v with examinedEntries := v.examinedEntries ++ w.examined } := by
  obtain ⟨left, hleft⟩ := h.examinedEntries
  obtain ⟨more, left', hentries, hwalk⟩ := nativeWalk_spec (c := c) h.identified maxNativeLiftPages v.examinedEntries left []
    none hleft
  rw [← h.nativeCursor, Option.or_none, List.nil_append] at hwalk
  refine ⟨_, hwalk, fun e' ht => ?_⟩
  have hcursor : cursorOf e' = cursorOf e := by rw [cursorOf, ht.sequence, Option.none_or, cursorOf]
  have hexamined : v.examined = [] := by
    have := h.oneSource
    rwa [if_pos hharness] at this
  have hnative : nativeProjectionsOf c e' = nativeProjections (c.projectorFor "pi") := by
    rw [nativeProjectionsOf, ht.harness, hharness, Option.bind_some]
  have hold : nativeProjectionsOf c e = nativeProjections (c.projectorFor "pi") := by
    rw [nativeProjectionsOf, hharness, Option.bind_some]
  refine
    { sorted := h.sorted
      bounded := h.bounded
      evicted := h.evicted
      identified := h.identified
      cursor := hcursor ▸ h.cursor
      examined := hcursor ▸ h.examined
      offered := h.offered
      shows := fun t hnew => by simp [hexamined, newest] at hnew
      nativeCursor := ?_
      examinedEntries := ⟨left', hentries⟩
      showsEntries := ?_
      oneSource := ?_ }
  · rw [ht.nativeCursor]
    show ((v.examinedEntries ++ more).getLast?.map NativeEvidenceFrame.nativeId).or e.terminalNativeCursor = _
    rw [h.nativeCursor, ← Option.map_or, List.getLast?_append, Option.or_assoc, Option.or_self]
  · rw [hnative]
    exact ht.shows_newest rfl (hold ▸ h.showsEntries)
  · rw [ht.harness, if_pos hharness]
    exact hexamined

theorem readEntryTerminalEvidence_ok (h : SessionOk c e v)
    (hwhole : ∀ harness, e.harness = some harness → harness ≠ "pi" → v.reachable = true → PageWhole c e v.bridge) :
    ReadOk c e v (readEntryTerminalEvidence c e v).1 (readEntryTerminalEvidence c e v).2 := by
  have hnothing : ReadOk c e v (.read ⟨none, none, none⟩) v := by
    refine ⟨nofun, nofun, fun r hr e' ht => ?_⟩
    cases hr
    exact h.congr ht.harness ht.sequence ht.nativeCursor (ht.kept rfl)
  unfold readEntryTerminalEvidence
  cases hharness : e.harness with
  | none => exact hnothing
  | some harness =>
    dsimp only
    split
    · exact hnothing
    split
    · exact ⟨nofun, fun _ => rfl, nofun⟩
    rename_i hreachable
    split
    · rename_i hpi
      obtain ⟨w, hwalk, hok⟩ := h.readEntries (hpi ▸ hharness)
      rw [hwalk]
      refine ⟨nofun, nofun, fun r hr e' ht => ?_⟩
      cases hr
      exact hok e' ht
    rename_i hpi
    have hpage := hwhole harness hharness hpi (by simpa using hreachable)
    have hprojections : projectionsOf c e = evidenceProjections (c.projectorFor harness) := by
      rw [projectionsOf, hharness, Option.bind_some]
    have hmapped := hpage.mapped
    rw [page_frames_of_fits hpage.fits, latestTerminalEvidence_eq (hprojections ▸ hmapped), Option.or_none, ← hprojections]
    refine ⟨nofun, nofun, fun r hr e' ht => ?_⟩
    cases hr
    exact h.readPage hharness hpi hpage ht

end AgentsRemember.Catalog
