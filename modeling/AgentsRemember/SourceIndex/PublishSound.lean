import AgentsRemember.SourceIndex.World

/-!
# Openings lease one completed generation

The readiness marker is removed before the database is replaced and written
last, so a marker that can be read stands beside the database and the manifest
of its own publication. Only the holder of the exclusive lock writes, and a
process that has read one of the three files keeps a lock until it has read
them all.
-/

namespace AgentsRemember.SourceIndex

open Lib

variable (sha256 : Bytes → String)

/-! ## Complete generations -/

/-- The snapshot id is the hash of the files that were indexed, and database, manifest and marker agree on it. -/
structure Generation.Sound (g : Generation) : Prop where
  paths : (g.indexed.map Prod.fst).Nodup
  snapshot : g.readiness.snapshotId = snapshotId sha256 (g.indexed.map (hashed sha256))
  rows : g.database.rows = rows g.indexed
  opens : g.database.opens g.readiness = true
  manifestSnapshot : g.manifest.snapshotId = g.readiness.snapshotId
  manifestRoots : g.manifest.roots = g.readiness.roots
  hashes : g.manifest.hashes.Perm (g.indexed.map (hashed sha256))

structure Manifest.Of (m : Manifest) (g : Generation) : Prop where
  roots : m.roots = g.manifest.roots
  snapshot : m.snapshotId = g.manifest.snapshotId
  hashes : m.hashes.Perm g.manifest.hashes

/-- Marker and database of the slot are those of `g`, and the manifest is one of its manifests. -/
structure Slot.Holds (s : Slot) (g : Generation) : Prop where
  completed : g ∈ s.completed
  readiness : s.readiness = some g.readiness
  database : s.database = some g.database
  manifest : ∃ m, s.manifest = some m ∧ m.Of g

structure Lease.Of (lease : Lease) (g : Generation) : Prop where
  database : lease.database = g.database
  readiness : lease.readiness = g.readiness
  manifest : ∀ m, lease.manifest = some m → m.Of g
  snapshot : lease.snapshotId = g.readiness.snapshotId

/-- The lease is of one completed generation, for the roots it was asked for. -/
def Lease.Whole (s : Slot) (roots : Roots) (lease : Lease) : Prop :=
  ∃ g ∈ s.completed, g.Sound sha256 ∧ lease.Of g ∧ g.readiness.roots = roots

variable {read : String → StableRead} {roots : Roots} {built : Built} {manifest : Manifest} {state : TreeState}
  {g : Generation} {s t : Slot} {phase : Phase} {r : ReadyGeneration} {d : Database} {mode : LockMode} {m : Move}
  {processes others : List Process} {i : Nat} {q p : Process} {w : World}

theorem readFiles_paths : ∀ {files : List SourceFile} {indexed : List Indexed},
    readFiles read files = .ok indexed → indexed.map Prod.fst = files.map SourceFile.path
  | [], indexed, h => by cases h; rfl
  | one :: rest, indexed, h => by
    rw [readFiles] at h
    cases hc : readContent (read one.path) with
    | error e => simp [hc] at h
    | ok content =>
      cases hr : readFiles read rest with
      | error e => simp [hc, hr, Except.map] at h
      | ok tail =>
        simp only [hc, hr, Except.map, Except.ok.injEq] at h
        subst h
        rw [List.map_cons, List.map_cons, readFiles_paths hr]

theorem hashes_withHashes {hashes : List (String × String)} {files : List SourceFile} (hn : (hashes.map Prod.fst).Nodup)
    (hp : (files.map SourceFile.path).Perm (hashes.map Prod.fst)) :
    ((withHashes hashes files).map fun f => (f.path, f.contentSha256)).Perm hashes := by
  have hmap : (withHashes hashes files).map (fun f => (f.path, f.contentSha256)) =
      (files.map SourceFile.path).map fun k => (k, (Dict.lookupIn k hashes).getD "") := by
    rw [withHashes, List.map_map, List.map_map]
    rfl
  have hkeys : (hashes.map Prod.fst).map (fun k => (k, (Dict.lookupIn k hashes).getD "")) = hashes := by
    rw [List.map_map]
    conv => rhs; rw [← List.map_id hashes]
    apply List.map_congr_left
    intro e he
    simp [Dict.lookupIn_of_mem hn he]
  rw [hmap]
  exact (hp.map _).trans (List.Perm.of_eq hkeys)

theorem fst_hashed (indexed : List Indexed) : (indexed.map (hashed sha256)).map Prod.fst = indexed.map Prod.fst := by
  rw [List.map_map]
  rfl

theorem buildOnce_sound {generationId : String} {o : BuildObservation}
    (h : buildOnce sha256 generationId roots o = .ok built) :
    (built.generation roots).Sound sha256 ∧ built.readiness.roots = roots := by
  unfold buildOnce at h
  cases hb : checkSourceBounds o.initial with
  | error e => simp [hb, bind, Except.bind] at h
  | ok u =>
    cases hr : readFiles o.read o.initial.files with
    | error e => simp [hb, hr, bind, Except.bind] at h
    | ok indexed =>
      simp only [hb, hr, bind, Except.bind] at h
      split at h
      · cases h
      rename_i hid
      rw [ne_eq, not_not] at hid
      have hpaths := readFiles_paths hr
      have hfinal : o.final.files.map SourceFile.path = indexed.map Prod.fst := by
        have h2 : o.initial.files.map SourceFile.identity = o.final.files.map SourceFile.identity := congrArg Prod.snd hid
        have h3 := congrArg (List.map Identity.path) h2
        rw [List.map_map, List.map_map] at h3
        exact h3.symm.trans hpaths.symm
      have hnodup : (indexed.map Prod.fst).Nodup := hpaths ▸ o.initial.nodup
      cases h
      refine ⟨⟨hnodup, rfl, rfl, ?_, rfl, rfl, ?_⟩, rfl⟩
      · simp [Built.generation, Database.opens]
      refine hashes_withHashes ?_ ?_
      · rw [fst_hashed]
        exact hnodup
      · rw [fst_hashed, hfinal]

/-! ## A refresh of the manifest -/

theorem sameMembers_iff {α : Type} [DecidableEq α] {xs ys : List α} :
    sameMembers xs ys = true ↔ ∀ x, x ∈ xs ↔ x ∈ ys := by
  simp only [sameMembers, Bool.and_eq_true, List.all_eq_true, decide_eq_true_eq]
  exact ⟨fun h x => ⟨h.1 x, h.2 x⟩, fun h => ⟨fun x => (h x).mp, fun x => (h x).mpr⟩⟩

theorem validate_paths {checkContent : Bool} {v : Validation}
    (h : validate sha256 manifest roots state read checkContent = .ok v) (hs : v.stale = false) :
    ∀ path, path ∈ manifest.files.map SourceFile.path ↔ path ∈ v.state.files.map SourceFile.path := by
  unfold validate at h
  split at h
  · cases h
    cases hs
  split at h
  · cases h
    cases hs
  rename_i hp
  rw [Bool.not_eq_false] at hp
  have hstate : v.state = state := by
    simp only at h
    split at h
    · cases h
      rfl
    cases hc : contentSame sha256 manifest.hashes read (changedFiles manifest state) with
    | error e => simp [hc, bind, Except.bind] at h
    | ok same =>
      simp only [hc, bind, Except.bind] at h
      split at h <;> cases h <;> rfl
  rw [hstate]
  exact sameMembers_iff.mp hp

theorem refreshedManifest_of {m : Manifest} (hg : g.Sound sha256) (h : m.Of g)
    (hp : ∀ path, path ∈ m.files.map SourceFile.path ↔ path ∈ state.files.map SourceFile.path) :
    (refreshedManifest m state).Of g := by
  refine ⟨h.roots, h.snapshot, List.Perm.trans ?_ h.hashes⟩
  have hnodup : (m.hashes.map Prod.fst).Nodup := by
    rw [((h.hashes.trans hg.hashes).map Prod.fst).nodup_iff, fst_hashed]
    exact hg.paths
  have hfst : m.hashes.map Prod.fst = m.files.map SourceFile.path := by
    rw [Manifest.hashes, List.map_map]
    rfl
  have hperm : (state.files.map SourceFile.path).Perm (m.hashes.map Prod.fst) :=
    (List.perm_ext_iff_of_nodup state.nodup hnodup).mpr fun path => by rw [hfst, hp]
  exact hashes_withHashes hnodup hperm

/-! ## What each phase relies on -/

def Built.Good (roots : Roots) (built : Built) : Prop :=
  (built.generation roots).Sound sha256 ∧ built.readiness.roots = roots

def PhaseOk (s : Slot) (roots : Roots) : Phase → Prop
  | .readingReadiness _ manifest => s.manifest = some manifest
  | .validating _ manifest readiness => s.manifest = some manifest ∧ s.readiness = some readiness ∧ readiness.roots = roots
  | .openingDatabase _ manifest readiness validation =>
    s.manifest = some manifest ∧ s.readiness = some readiness ∧ readiness.roots = roots ∧
      ∀ path, path ∈ manifest.files.map SourceFile.path ↔ path ∈ validation.state.files.map SourceFile.path
  | .removingReadiness _ built => built.Good sha256 roots
  | .replacingDatabase _ built => built.Good sha256 roots ∧ s.readiness = none
  | .writingManifest _ built => built.Good sha256 roots ∧ s.readiness = none ∧ s.database = some built.database
  | .checkingBoundary _ built | .writingReadiness built =>
    built.Good sha256 roots ∧ s.readiness = none ∧ s.database = some built.database ∧ s.manifest = some built.manifest
  | .reopening manifest => s.manifest = some manifest
  | .reopeningDatabase manifest readiness => s.manifest = some manifest ∧ s.readiness = some readiness ∧ readiness.roots = roots
  | .refreshing lease manifest => lease.Whole sha256 s roots ∧ ∃ g, s.Holds g ∧ manifest.Of g
  | .downgrading lease | .relocking lease | .leased lease => lease.Whole sha256 s roots
  | .expectedDatabase readiness => s.readiness = some readiness ∧ readiness.roots = roots
  | _ => True

def Slot.Published (s : Slot) : Prop := ∀ r, s.readiness = some r → ∃ g, s.Holds g ∧ g.readiness = r

def Slot.Complete (s : Slot) : Prop := s.Published ∧ ∀ g ∈ s.completed, g.Sound sha256

variable {sha256}

theorem Lease.Whole.mono {lease : Lease} (hc : s.completed ⊆ t.completed) (h : lease.Whole sha256 s roots) :
    lease.Whole sha256 t roots := by
  obtain ⟨g, hg, hrest⟩ := h
  exact ⟨g, hc hg, hrest⟩

theorem PhaseOk.of_unlocked (hl : phase.lock = none) (hc : s.completed ⊆ t.completed) (h : PhaseOk sha256 s roots phase)
    : PhaseOk sha256 t roots phase := by
  cases phase with
  | requested => trivial
  | upgrading => trivial
  | ended => trivial
  | relocking lease => exact Lease.Whole.mono hc h
  | _ => cases hl

theorem readyGeneration_eq {marker : Option ReadyGeneration} (h : readyGeneration roots marker = some r) :
    marker = some r ∧ r.roots = roots := by
  rw [readyGeneration, Option.filter_eq_some_iff] at h
  obtain ⟨hm, hr⟩ := h
  rw [Bool.and_eq_true, decide_eq_true_eq] at hr
  exact ⟨hm, hr.2⟩

theorem lease_whole {snapshot : String} {m : Option Manifest} (hs : s.Complete sha256) (hr : s.readiness = some r)
    (hroots : r.roots = roots) (hd : s.database = some d)
    (hm : ∀ m', m = some m' → ∀ g, g.Sound sha256 → s.Holds g → m'.Of g)
    (hsnap : ∀ g, g.Sound sha256 → s.Holds g → snapshot = g.readiness.snapshotId) :
    Lease.Whole sha256 s roots ⟨d, r, m, snapshot⟩ := by
  obtain ⟨g, hg, rfl⟩ := hs.1 r hr
  have hsound := hs.2 g hg.completed
  refine ⟨g, hg.completed, hsound, ⟨?_, rfl, fun m' h => hm m' h g hsound hg, hsnap g hsound hg⟩, hroots⟩
  exact Option.some.inj (hd.symm.trans hg.database)

theorem Slot.Holds.of_manifest {m : Manifest} (h : s.Holds g) (hm : s.manifest = some m) : m.Of g := by
  obtain ⟨m', hm', hof⟩ := h.manifest
  cases hm.symm.trans hm'
  exact hof

theorem Manifest.Of.snapshotId_eq {m : Manifest} (h : m.Of g) (hg : g.Sound sha256) :
    m.snapshotId = g.readiness.snapshotId := h.snapshot.trans hg.manifestSnapshot

/-! ## One move -/

section
variable (sha256)

/-- What a move keeps: it gets only locks that are granted, writes only under the exclusive lock, and loses no generation. -/
structure Kept (others : List Process) (s : Slot) (p : Process) (t : Slot) (phase : Phase) : Prop where
  lock : ∀ mode, phase.lock = some mode → p.phase.lock = some mode ∨ grants others mode = true
  frame : t = s ∨ p.phase.lock = some .exclusive
  grows : s.completed ⊆ t.completed
  complete : t.Complete sha256
  ok : PhaseOk sha256 t p.roots phase

end

variable {others : List Process} {s t : Slot} {p : Process} {phase : Phase}

theorem Kept.reading (hs : s.Complete sha256) (hl : ∀ mode, phase.lock = some mode → p.phase.lock = some mode ∨ grants others mode = true)
    (hok : PhaseOk sha256 s p.roots phase) : Kept sha256 others s p s phase := ⟨hl, .inl rfl, fun _ h => h, hs, hok⟩

theorem Kept.writing (hl : p.phase.lock = some .exclusive) (hp : phase.lock = some .exclusive) (hc : t.completed = s.completed)
    (ht : t.Complete sha256) (hok : PhaseOk sha256 t p.roots phase) : Kept sha256 others s p t phase :=
  ⟨fun mode hm => .inl (by rw [hl, ← hm, hp]), .inr hl, hc ▸ fun _ h => h, ht, hok⟩

theorem complete_of_unpublished (hs : s.Complete sha256) (hc : t.completed = s.completed) (hr : t.readiness = none) :
    t.Complete sha256 := by
  refine ⟨fun r h => ?_, hc ▸ hs.2⟩
  rw [hr] at h
  cases h

theorem lock_notCurrent {mode' : LockMode} (h : (notCurrent mode).lock = some mode') : mode = mode' := by
  cases mode <;> cases h
  rfl

theorem ok_notCurrent (mode : LockMode) (roots : Roots) : PhaseOk sha256 s roots (notCurrent mode) := by
  cases mode <;> trivial

theorem kept_notCurrent (hs : s.Complete sha256) (hl : p.phase.lock = some mode) :
    Kept sha256 others s p s (notCurrent mode) :=
  .reading hs (fun _ h => .inl (lock_notCurrent h ▸ hl)) (ok_notCurrent mode p.roots)

theorem kept_retried (attempt : Nat) (hs : s.Complete sha256) (hl : p.phase.lock = some .exclusive) :
    Kept sha256 others s p s (retried attempt) := by
  rw [retried]
  split
  · exact .reading hs (fun _ h => .inl (hl.trans h)) trivial
  · exact .reading hs (fun _ h => nomatch h) trivial

theorem kept_ended (hs : s.Complete sha256) : Kept sha256 others s p s .ended := .reading hs (fun _ h => nomatch h) trivial

theorem kept_current {readiness : ReadyGeneration} {validation : Validation} (hs : s.Complete sha256)
    (hl : p.phase.lock = some mode) (hm : s.manifest = some manifest) (hr : s.readiness = some readiness)
    (hroots : readiness.roots = p.roots) (hd : s.database = some d)
    (hpaths : ∀ path, path ∈ manifest.files.map SourceFile.path ↔ path ∈ validation.state.files.map SourceFile.path) :
    Kept sha256 others s p s (current mode manifest readiness validation d) := by
  have hlease : Lease.Whole sha256 s p.roots ⟨d, readiness, some manifest, manifest.snapshotId⟩ := by
    refine lease_whole hs hr hroots hd (fun m' h g _ hg => ?_) fun g hsound hg => (hg.of_manifest hm).snapshotId_eq hsound
    cases h
    exact hg.of_manifest hm
  cases mode with
  | shared =>
    unfold current
    simp only
    split
    · exact .reading hs (fun _ h => nomatch h) trivial
    · exact .reading hs (fun _ h => .inl (hl.trans h)) hlease
  | exclusive =>
    unfold current
    simp only
    split
    · obtain ⟨g, hg, -⟩ := hs.1 readiness hr
      have hrefreshed := refreshedManifest_of sha256 (hs.2 g hg.completed) (hg.of_manifest hm) hpaths
      refine .reading hs (fun _ h => .inl (hl.trans h)) ⟨?_, g, hg, hrefreshed⟩
      refine lease_whole hs hr hroots hd (fun m' h g hsound hg => ?_) fun g hsound hg => (hg.of_manifest hm).snapshotId_eq hsound
      cases h
      exact refreshedManifest_of sha256 hsound (hg.of_manifest hm) hpaths
    · exact .reading hs (fun _ h => .inl (hl.trans h)) hlease

theorem complete_of_published (hs : s.Complete sha256) (hgood : built.Good sha256 roots)
    (hd : s.database = some built.database) (hm : s.manifest = some built.manifest) :
    Slot.Complete sha256
      { s with readiness := some built.readiness, completed := s.completed ++ [built.generation roots] } := by
  refine ⟨fun r hr => ⟨built.generation roots, ?_, Option.some.inj hr⟩, fun g hg => ?_⟩
  · exact ⟨List.mem_append_right _ (by simp), rfl, hd, built.manifest, hm, rfl, rfl, .rfl⟩
  rcases List.mem_append.mp hg with hg | hg
  · exact hs.2 g hg
  · rw [List.mem_singleton.mp hg]
    exact hgood.1

theorem complete_of_refreshed (hs : s.Complete sha256) (hg : s.Holds g) (hm : manifest.Of g) :
    Slot.Complete sha256 { s with manifest := some manifest } := by
  refine ⟨fun r hr => ⟨g, ⟨hg.completed, hg.readiness, hg.database, manifest, rfl, hm⟩, ?_⟩, hs.2⟩
  exact Option.some.inj (hg.readiness.symm.trans hr)

theorem kept_next (hs : s.Complete sha256) (hok : PhaseOk sha256 s p.roots p.phase)
    (h : advance sha256 others s p .next = some (t, phase)) : Kept sha256 others s p t phase := by
  unfold advance at h
  cases hp : p.phase with
  | requested =>
    simp only [hp] at h
    split at h
    · rename_i hgrant
      cases h
      cases p.expected with
      | none => exact .reading hs (fun mode hm => .inr (by cases hm; exact hgrant)) trivial
      | some e => exact .reading hs (fun mode hm => .inr (by cases hm; exact hgrant)) trivial
    · cases h
  | readingManifest mode =>
    simp only [hp, Option.some.injEq, Prod.mk.injEq] at h
    obtain ⟨rfl, rfl⟩ := h
    cases hm : s.manifest with
    | none => exact kept_notCurrent hs (by rw [hp]; rfl)
    | some m => exact .reading hs (fun _ h => .inl (by rw [hp]; exact h)) hm
  | readingReadiness mode manifest =>
    simp only [hp, Option.some.injEq, Prod.mk.injEq] at h
    obtain ⟨rfl, rfl⟩ := h
    rw [hp] at hok
    cases hr : readyGeneration p.roots s.readiness with
    | none => exact kept_notCurrent hs (by rw [hp]; rfl)
    | some r =>
      simp only
      split
      · exact .reading hs (fun _ h => .inl (by rw [hp]; exact h)) ⟨hok, (readyGeneration_eq hr).1, (readyGeneration_eq hr).2⟩
      · exact kept_notCurrent hs (by rw [hp]; rfl)
  | openingDatabase mode manifest readiness validation =>
    simp only [hp, Option.some.injEq, Prod.mk.injEq] at h
    obtain ⟨rfl, rfl⟩ := h
    rw [hp] at hok
    obtain ⟨hm, hr, hroots, hpaths⟩ := hok
    cases hd : s.database with
    | none => exact kept_notCurrent hs (by rw [hp]; rfl)
    | some d =>
      simp only
      split
      · exact kept_current hs (by rw [hp]; rfl) hm hr hroots hd hpaths
      · exact kept_notCurrent hs (by rw [hp]; rfl)
  | upgrading =>
    simp only [hp] at h
    split at h
    · rename_i hgrant
      cases h
      exact .reading hs (fun mode hm => .inr (by cases hm; exact hgrant)) trivial
    · cases h
  | removingReadiness attempt built =>
    simp only [hp, Option.some.injEq, Prod.mk.injEq] at h
    obtain ⟨rfl, rfl⟩ := h
    rw [hp] at hok
    exact .writing (by rw [hp]; rfl) rfl rfl (complete_of_unpublished hs rfl rfl) ⟨hok, rfl⟩
  | replacingDatabase attempt built =>
    simp only [hp, Option.some.injEq, Prod.mk.injEq] at h
    obtain ⟨rfl, rfl⟩ := h
    rw [hp] at hok
    exact .writing (by rw [hp]; rfl) rfl rfl (complete_of_unpublished hs rfl hok.2) ⟨hok.1, hok.2, rfl⟩
  | writingManifest attempt built =>
    simp only [hp, Option.some.injEq, Prod.mk.injEq] at h
    obtain ⟨rfl, rfl⟩ := h
    rw [hp] at hok
    exact .writing (by rw [hp]; rfl) rfl rfl (complete_of_unpublished hs rfl hok.2.1) ⟨hok.1, hok.2.1, hok.2.2, rfl⟩
  | writingReadiness built =>
    simp only [hp, Option.some.injEq, Prod.mk.injEq] at h
    obtain ⟨rfl, rfl⟩ := h
    rw [hp] at hok
    obtain ⟨hgood, -, hd, hm⟩ := hok
    refine ⟨fun mode hm => .inl (by rw [hp]; exact hm), .inr (by rw [hp]; rfl), List.subset_append_left _ _, ?_, hm⟩
    exact complete_of_published hs hgood hd hm
  | reopening manifest =>
    simp only [hp, Option.some.injEq, Prod.mk.injEq] at h
    obtain ⟨rfl, rfl⟩ := h
    rw [hp] at hok
    cases hr : readyGeneration p.roots s.readiness with
    | none => exact kept_ended hs
    | some r =>
      exact .reading hs (fun _ h => .inl (by rw [hp]; exact h)) ⟨hok, (readyGeneration_eq hr).1, (readyGeneration_eq hr).2⟩
  | reopeningDatabase manifest readiness =>
    simp only [hp, Option.some.injEq, Prod.mk.injEq] at h
    obtain ⟨rfl, rfl⟩ := h
    rw [hp] at hok
    obtain ⟨hm, hr, hroots⟩ := hok
    cases hd : s.database with
    | none => exact kept_ended hs
    | some d =>
      simp only
      split
      · refine .reading hs (fun _ h => .inl (by rw [hp]; exact h)) ?_
        refine lease_whole hs hr hroots hd (fun m' h g _ hg => ?_) fun g hsound hg => (hg.of_manifest hm).snapshotId_eq hsound
        cases h
        exact hg.of_manifest hm
      · exact kept_ended hs
  | refreshing lease manifest =>
    simp only [hp, Option.some.injEq, Prod.mk.injEq] at h
    obtain ⟨rfl, rfl⟩ := h
    rw [hp] at hok
    obtain ⟨hw, g, hg, hof⟩ := hok
    exact .writing (by rw [hp]; rfl) rfl rfl (complete_of_refreshed hs hg hof) (hw.mono fun _ h => h)
  | downgrading lease =>
    simp only [hp, Option.some.injEq, Prod.mk.injEq] at h
    obtain ⟨rfl, rfl⟩ := h
    rw [hp] at hok
    exact .reading hs (fun _ h => nomatch h) hok
  | relocking lease =>
    simp only [hp] at h
    split at h
    · rename_i hgrant
      cases h
      rw [hp] at hok
      exact .reading hs (fun mode hm => .inr (by cases hm; exact hgrant)) hok
    · cases h
  | expectedReadiness =>
    simp only [hp, Option.some.injEq, Prod.mk.injEq] at h
    obtain ⟨rfl, rfl⟩ := h
    cases hr : readyGeneration p.roots s.readiness with
    | none => exact kept_ended hs
    | some r =>
      simp only
      split
      · exact .reading hs (fun _ h => .inl (by rw [hp]; exact h)) (readyGeneration_eq hr)
      · exact kept_ended hs
  | expectedDatabase readiness =>
    simp only [hp, Option.some.injEq, Prod.mk.injEq] at h
    obtain ⟨rfl, rfl⟩ := h
    rw [hp] at hok
    cases hd : s.database with
    | none => exact kept_ended hs
    | some d =>
      simp only
      split
      · refine .reading hs (fun _ h => .inl (by rw [hp]; exact h)) ?_
        refine lease_whole hs hok.1 hok.2 hd (fun m' h => nomatch h) fun g _ hg => ?_
        rw [Option.some.inj (hok.1.symm.trans hg.readiness)]
      · exact kept_ended hs
  | validating mode manifest readiness => simp [hp] at h
  | building attempt => simp [hp] at h
  | checkingBoundary attempt built => simp [hp] at h
  | leased lease => simp [hp] at h
  | ended => simp [hp] at h

theorem kept_advance (hs : s.Complete sha256) (hok : PhaseOk sha256 s p.roots p.phase)
    (h : advance sha256 others s p m = some (t, phase)) : Kept sha256 others s p t phase := by
  cases m with
  | next => exact kept_next hs hok h
  | finish =>
    cases h
    exact kept_ended hs
  | unreadable =>
    unfold advance at h
    simp only at h
    split at h
    all_goals first
      | cases h; exact kept_notCurrent hs (by rw [‹p.phase = _›]; rfl)
      | cases h
  | validate state read =>
    unfold advance at h
    cases hp : p.phase with
    | validating mode manifest readiness =>
      simp only [hp, Option.some.injEq, Prod.mk.injEq] at h
      obtain ⟨rfl, rfl⟩ := h
      rw [hp] at hok
      have hl : p.phase.lock = some mode := by rw [hp]; rfl
      cases hv : validate sha256 manifest p.roots state read (mode = .exclusive) with
      | error e => exact kept_notCurrent hs hl
      | ok validation =>
        cases hstale : validation.stale with
        | true =>
          simp only [hstale, if_true]
          exact kept_notCurrent hs hl
        | false =>
          simp only [hstale, Bool.false_eq_true, if_false]
          exact .reading hs (fun _ h => .inl (hl.trans h)) ⟨hok.1, hok.2.1, hok.2.2, validate_paths sha256 hv hstale⟩
    | _ => simp [hp] at h
  | build uuid seen =>
    unfold advance at h
    cases hp : p.phase with
    | building attempt =>
      simp only [hp, Option.some.injEq, Prod.mk.injEq] at h
      obtain ⟨rfl, rfl⟩ := h
      have hl : p.phase.lock = some .exclusive := by rw [hp]; rfl
      cases hb : buildOnce sha256 (sha256 uuid) p.roots seen with
      | ok built => exact .reading hs (fun _ h => .inl (hl.trans h)) (buildOnce_sound sha256 hb)
      | error e =>
        cases e with
        | sourceTreeChanged => exact kept_retried attempt hs hl
        | sourceIndex => exact kept_ended hs
    | _ => simp [hp] at h
  | boundary published =>
    unfold advance at h
    cases hp : p.phase with
    | checkingBoundary attempt built =>
      simp only [hp, Option.some.injEq, Prod.mk.injEq] at h
      obtain ⟨rfl, rfl⟩ := h
      rw [hp] at hok
      have hl : p.phase.lock = some .exclusive := by rw [hp]; rfl
      split
      · exact kept_retried attempt hs hl
      · exact .reading hs (fun _ h => .inl (hl.trans h)) hok
    | _ => simp [hp] at h

/-! ## The phases of an expected snapshot -/

def Answers (expected : Option String) : Phase → Prop
  | .requested | .expectedReadiness | .ended => True
  | .expectedDatabase readiness => expected = some readiness.snapshotId
  | .leased lease => ∀ snapshot, expected = some snapshot → lease.snapshotId = snapshot
  | _ => expected = none

theorem answers_of_none (hp : ∀ r, phase ≠ .expectedDatabase r) : Answers none phase := by
  cases phase with
  | expectedDatabase r => exact absurd rfl (hp r)
  | leased lease => exact fun _ h => nomatch h
  | requested => trivial
  | expectedReadiness => trivial
  | ended => trivial
  | _ => rfl

@[simp] theorem notCurrent_ne_expected (mode : LockMode) (r : ReadyGeneration) : notCurrent mode ≠ .expectedDatabase r := by
  cases mode <;> exact fun h => nomatch h

@[simp] theorem retried_ne_expected (attempt : Nat) (r : ReadyGeneration) : retried attempt ≠ .expectedDatabase r := by
  unfold retried
  split <;> exact fun h => nomatch h

@[simp] theorem current_ne_expected (mode : LockMode) (manifest : Manifest) (readiness r : ReadyGeneration)
    (validation : Validation) (d : Database) : current mode manifest readiness validation d ≠ .expectedDatabase r := by
  unfold current
  cases mode <;> simp only <;> split <;> exact fun h => nomatch h

theorem expected_of_advance (h : advance sha256 others s p m = some (t, .expectedDatabase r)) :
    p.expected = some r.snapshotId := by
  cases m with
  | next =>
    cases hp : p.phase with
    | expectedReadiness =>
      simp only [advance, hp, Option.some.injEq, Prod.mk.injEq] at h
      obtain ⟨-, h⟩ := h
      split at h
      · cases h
      split at h
      · rename_i hr
        cases h
        exact hr.symm
      · cases h
    | _ =>
      simp only [advance, hp] at h
      repeat' split at h
      all_goals simp at h
  | _ =>
    cases hp : p.phase
    all_goals simp [advance, hp] at h
    all_goals repeat' split at h
    all_goals simp at h

theorem answers_advance (ha : Answers p.expected p.phase) (h : advance sha256 others s p m = some (t, phase)) :
    Answers p.expected phase := by
  cases he : p.expected with
  | none =>
    refine answers_of_none fun r hr => ?_
    subst hr
    rw [expected_of_advance h] at he
    cases he
  | some snapshot =>
    rw [he] at ha
    cases hp : p.phase with
    | requested =>
      cases m <;> simp [advance, hp, he] at h <;> (try obtain ⟨-, -, rfl⟩ := h) <;> trivial
    | expectedReadiness =>
      cases m with
      | next =>
        cases phase with
        | expectedDatabase r => exact he ▸ expected_of_advance h
        | ended => trivial
        | _ =>
          simp only [advance, hp, Option.some.injEq, Prod.mk.injEq] at h
          obtain ⟨-, h⟩ := h
          split at h
          · cases h
          · split at h <;> cases h
      | finish => cases h; trivial
      | _ => simp [advance, hp] at h
    | expectedDatabase readiness =>
      rw [hp] at ha
      cases m with
      | next =>
        simp only [advance, hp, Option.some.injEq, Prod.mk.injEq] at h
        obtain ⟨-, rfl⟩ := h
        cases s.database with
        | none => trivial
        | some d =>
          simp only
          split
          · intro snapshot' h'
            exact Option.some.inj (ha.symm.trans h')
          · trivial
      | finish => cases h; trivial
      | _ => simp [advance, hp] at h
    | leased lease =>
      cases m with
      | finish => cases h; trivial
      | _ => simp [advance, hp] at h
    | ended =>
      cases m with
      | finish => cases h; trivial
      | _ => simp [advance, hp] at h
    | _ =>
      rw [hp] at ha
      cases ha

/-! ## Every run -/

def Exclusion (processes : List Process) : Prop :=
  ∀ (i j : Nat) (p q : Process), i ≠ j → processes[i]? = some p → processes[j]? = some q →
    p.phase.lock = some .exclusive → q.phase.lock = none

variable (sha256)

structure Inv (w : World) : Prop where
  exclusion : Exclusion w.processes
  complete : w.slot.Complete sha256
  ok : ∀ p ∈ w.processes, PhaseOk sha256 w.slot p.roots p.phase
  answers : ∀ p ∈ w.processes, Answers p.expected p.phase

variable {sha256}

theorem mem_others {j : Nat} (hij : i ≠ j) (hq : processes[j]? = some q) :
    q ∈ processes.eraseIdx i := List.mem_eraseIdx_iff_getElem?.mpr ⟨j, hij.symm, hq⟩

theorem grants_exclusive (h : grants others .exclusive = true) (hq : q ∈ others) :
    q.phase.lock = none := by simpa using List.all_eq_true.mp h q hq

theorem grants_ne_exclusive (h : grants others mode = true) (hq : q ∈ others) : q.phase.lock ≠ some .exclusive := by
  cases mode with
  | shared => simpa using List.all_eq_true.mp h q hq
  | exclusive =>
    rw [grants_exclusive h hq]
    exact fun h => nomatch h

theorem exclusion_set {p' : Process} (h : Exclusion processes) (hi : processes[i]? = some p)
    (hl : ∀ mode, p'.phase.lock = some mode → p.phase.lock = some mode ∨ grants (processes.eraseIdx i) mode = true) :
    Exclusion (processes.set i p') := by
  intro j k q r hjk hq hr hlock
  rw [List.getElem?_set] at hq hr
  by_cases hij : i = j
  · subst hij
    rw [if_neg hjk] at hr
    simp only [if_true] at hq
    split at hq
    · cases hq
      rcases hl _ hlock with hold | hgrant
      · exact h i k p r hjk hi hr hold
      · exact grants_exclusive hgrant (mem_others hjk hr)
    · cases hq
  rw [if_neg hij] at hq
  by_cases hik : i = k
  · subst hik
    simp only [if_true] at hr
    split at hr
    · cases hr
      cases hmode : p'.phase.lock with
      | none => rfl
      | some mode =>
        rcases hl _ hmode with hold | hgrant
        · rw [h j i q p hjk hq hi hlock] at hold
          cases hold
        · exact absurd hlock (grants_ne_exclusive hgrant (mem_others (Ne.symm hjk) hq))
    · cases hr
  · rw [if_neg hik] at hr
    exact h j k q r hjk hq hr hlock

theorem inv_init : Inv sha256 (system sha256).init :=
  ⟨fun _ _ _ _ _ h => by simp [system] at h, ⟨fun _ h => (nomatch h), fun _ h => (nomatch h)⟩, fun _ h => (nomatch h),
    fun _ h => (nomatch h)⟩

theorem inv_start (hw : Inv sha256 w) (roots : Roots) (expected : Option String) :
    Inv sha256 { w with processes := w.processes ++ [⟨roots, expected, .requested⟩] } := by
  refine ⟨?_, hw.complete, fun p hp => ?_, fun p hp => ?_⟩
  · intro i j p q hij hp hq hlock
    rcases Nat.lt_or_ge i w.processes.length with hi | hi
    · rw [List.getElem?_append_left hi] at hp
      rcases Nat.lt_or_ge j w.processes.length with hj | hj
      · rw [List.getElem?_append_left hj] at hq
        exact hw.exclusion i j p q hij hp hq hlock
      rw [List.getElem?_append_right hj] at hq
      have := List.mem_of_getElem? hq
      rw [List.mem_singleton.mp this]
      rfl
    rw [List.getElem?_append_right hi] at hp
    rw [List.mem_singleton.mp (List.mem_of_getElem? hp)] at hlock
    cases hlock
  · rcases List.mem_append.mp hp with hp | hp
    · exact hw.ok p hp
    · rw [List.mem_singleton.mp hp]
      trivial
  · rcases List.mem_append.mp hp with hp | hp
    · exact hw.answers p hp
    · rw [List.mem_singleton.mp hp]
      trivial

theorem inv_move (hw : Inv sha256 w) (hi : w.processes[i]? = some p)
    (h : advance sha256 (w.processes.eraseIdx i) w.slot p m = some (t, phase)) :
    Inv sha256 ⟨t, w.processes.set i { p with phase := phase }⟩ := by
  have hmem := List.mem_of_getElem? hi
  have hkept := kept_advance hw.complete (hw.ok p hmem) h
  -- the files a process has read stay: the mover wrote nothing, or it is alone with its lock
  have hothers : ∀ j q, i ≠ j → w.processes[j]? = some q → PhaseOk sha256 t q.roots q.phase := by
    intro j q hij hq
    have hok := hw.ok q (List.mem_of_getElem? hq)
    rcases hkept.frame with rfl | hl
    · exact hok
    · exact hok.of_unlocked (hw.exclusion i j p q hij hi hq hl) hkept.grows
  refine ⟨exclusion_set hw.exclusion hi hkept.lock, hkept.complete, fun q hq => ?_, fun q hq => ?_⟩
  · obtain ⟨j, hq⟩ := List.mem_iff_getElem?.mp hq
    rw [List.getElem?_set] at hq
    split at hq
    · split at hq
      · cases hq
        exact hkept.ok
      · cases hq
    · rename_i hij
      exact hothers j q hij hq
  · rcases List.mem_or_eq_of_mem_set hq with hq | rfl
    · exact hw.answers q hq
    · show Answers p.expected phase
      exact answers_advance (hw.answers p hmem) h

theorem inv_step {w' : World} {a : Action} (hw : Inv sha256 w) (h : (system sha256).step w a = some w') :
    Inv sha256 w' := by
  cases a with
  | start roots expected =>
    cases h
    exact inv_start hw roots expected
  | move i m =>
    simp only [system, step] at h
    cases hi : w.processes[i]? with
    | none => simp [hi] at h
    | some p =>
      simp only [hi, Option.map_eq_some_iff] at h
      obtain ⟨⟨t, phase⟩, hadv, rfl⟩ := h
      exact inv_move hw hi hadv

/-- Every lease is of one completed generation, with the roots and the snapshot the opening asked for, and so are the
files of the slot whenever its readiness marker stands. -/
theorem openings_lease_one_generation (sha256 : Bytes → String) (w : World) (h : Reachable (system sha256) always w) :
    (∀ p ∈ w.processes, ∀ lease, p.phase = .leased lease →
      lease.Whole sha256 w.slot p.roots ∧ ∀ snapshot, p.expected = some snapshot → lease.snapshotId = snapshot) ∧
    ∀ r, w.slot.readiness = some r → ∃ g, w.slot.Holds g ∧ g.Sound sha256 ∧ g.readiness = r := by
  have hw : Inv sha256 w := h.invariant inv_init fun _ _ _ hi _ hs => inv_step hi hs
  refine ⟨fun p hp lease hl => ⟨?_, ?_⟩, fun r hr => ?_⟩
  · have hok := hw.ok p hp
    rw [hl] at hok
    exact hok
  · have ha := hw.answers p hp
    rw [hl] at ha
    exact ha
  · obtain ⟨g, hg, hgr⟩ := hw.complete.1 r hr
    exact ⟨g, hg, hw.complete.2 g hg.completed, hgr⟩

/-- The digests of the three texts the opening below hashes. -/
def firstDigest (bytes : Bytes) : String :=
  if bytes = encode "x = 1\n" then "9e26bf369911c45c243c684147b23fc9e1dcfcf257d299a1c632016a6fcd33f4"
  else if bytes = List.replicate 16 0 then "374708fff7719dd5979ec875d56cd2286f6d3cf7ec317a3b25632aab28ec37bb"
  else "c080bb8b45e8617c5d35aad8b1e7a3b4bd19cc78930f87642d090d3a098927d4"

def firstTree : TreeState :=
  ⟨[⟨".", 1, 2, 16877, 4096, 10, 10⟩], [{ identity := ⟨"a.py", 1, 3, 33188, 6, 10, 10⟩ }], by decide⟩

def firstOpening : List Action :=
  .start ⟨"/code", "/memory"⟩ none ::
    [.next, .next, .next, .next, .build (List.replicate 16 0) ⟨firstTree, fun _ => .raw (encode "x = 1\n"), 8192, firstTree⟩,
      .next, .next, .next, .boundary firstTree, .next, .next, .next, .next, .next].map (.move 0)

theorem openings_lease_one_generation_first :
    ∃ w, Reachable (system firstDigest) always w ∧ ∃ p ∈ w.processes, ∃ lease, p.phase.lease? = some lease ∧
      lease.snapshotId = "c080bb8b45e8617c5d35aad8b1e7a3b4bd19cc78930f87642d090d3a098927d4" ∧
      lease.Whole firstDigest w.slot p.roots := by
  have hrun : ((runFrom (system firstDigest) (system firstDigest).init firstOpening).bind fun w =>
      w.processes.head?.bind fun p => p.phase.lease?.map Lease.snapshotId) =
        some "c080bb8b45e8617c5d35aad8b1e7a3b4bd19cc78930f87642d090d3a098927d4" := by decide
  obtain ⟨w, hw, hrest⟩ := Option.bind_eq_some_iff.mp hrun
  obtain ⟨p, hp, hlease⟩ := Option.bind_eq_some_iff.mp hrest
  obtain ⟨lease, hl, hsnapshot⟩ := Option.map_eq_some_iff.mp hlease
  have hreach := reachable_of_runFrom hw
  have hmem : p ∈ w.processes := List.mem_of_head? hp
  have hphase : p.phase = .leased lease := by
    cases hph : p.phase <;> simp [hph, Phase.lease?] at hl
    rw [hl]
  exact ⟨w, hreach, p, hmem, lease, hl, hsnapshot, ((openings_lease_one_generation firstDigest w hreach).1 p hmem lease hphase).1⟩

end AgentsRemember.SourceIndex
