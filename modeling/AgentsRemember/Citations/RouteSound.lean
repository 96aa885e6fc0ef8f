import AgentsRemember.Citations.Reopen
import Mathlib.Data.List.Dedup

/-!
# What the routing hides

A path that Git proves unchanged holds what it held at the verified commit, so
its anchors resolve the same way then and now. The comparison that the router
skips would still report an anchor that resolves to nothing, or more than once.
-/

namespace AgentsRemember.Citations

open Lib Lib.Lines

/-- What Git promises about the regular files of a repository: a file that `status` does not list is the one of `HEAD`, and
one that `diff-tree` does not list is the same at both commits. -/
structure Tracks (w : World) (kind : RepositoryKind) : Prop where
  working : ∀ {ps hs}, workingPaths w kind = .ok ps → headPaths w kind = some (.ok hs) → ∀ path : String,
    path.toList ∈ hs → path.toList ∉ ps → ∃ text, w.file (joinPath (w.repository kind).root path) = some text ∧
      fileAt w kind "HEAD" path = ⟨some (String.ofList (universal text)), none⟩
  history : ∀ {commit ds}, historicalPaths w kind commit = .ok ds → ∀ path text : String, path.toList ∉ ds →
    fileAt w kind "HEAD" path = ⟨some text, none⟩ → fileAt w kind commit path = ⟨some text, none⟩

section
variable {w : World}

variable {kind : RepositoryKind} {commit path document : String} {e : Option String} {s : LocalCitation}
  {citations : List Citation} {r : ClaimRoute} {anchors : List Anchor} {sources : List LocalCitation} {claim : Claim}
  {changed invalid : List String}

theorem route_true (h : route w kind commit path = some (true, e)) :
    ∃ ps hs ds, workingPaths w kind = .ok ps ∧ headPaths w kind = some (.ok hs) ∧ historicalPaths w kind commit = .ok ds ∧
      path.toList ∉ ps ∧ path.toList ∈ hs ∧ path.toList ∉ ds := by
  rw [route] at h
  cases hw : workingPaths w kind with
  | error e => rw [hw] at h; simp at h
  | ok ps =>
    rw [hw] at h
    by_cases hps : path.toList ∈ ps
    · simp [hps] at h
    cases hh : headPaths w kind with
    | none => rw [hh] at h; simp [hps] at h
    | some head =>
      cases head with
      | error e => rw [hh] at h; simp [hps] at h
      | ok hs =>
        by_cases hmem : path.toList ∈ hs
        · cases hd : historicalPaths w kind commit with
          | error e => rw [hh, hd] at h; simp [hps, hmem] at h
          | ok ds =>
            rw [hh, hd] at h
            simp only [hps, hmem, if_false, not_true_eq_false, Option.some.injEq, Prod.mk.injEq, decide_eq_true_eq] at h
            exact ⟨ps, hs, ds, rfl, rfl, rfl, hps, hmem, h.1⟩
        · rw [hh] at h; simp [hps, hmem] at h

theorem unchanged_text (ht : Tracks w kind) (h : route w kind commit path = some (true, e)) :
    ∃ text, w.file (joinPath (w.repository kind).root path) = some text ∧
      fileAt w kind commit path = ⟨some (String.ofList (universal text)), none⟩ := by
  obtain ⟨ps, hs, ds, hps, hhs, hds, hp, hh, hd⟩ := route_true h
  obtain ⟨text, hfile, hhead⟩ := ht.working hps hhs path hh hp
  exact ⟨text, hfile, ht.history hds path _ hd hhead⟩

/-! ## Citations -/

theorem joinPath_under {root : PosixPath} (h : under (joinPath root path) root = false) (other : PosixPath) :
    joinPath other path = joinPath root path := by
  by_cases hrel : (PosixPath.ofText path).anchor = .relative
  · rw [joinPath, if_pos hrel, under, decide_eq_true rfl, Bool.true_and] at h
    rw [List.isPrefixOf_iff_prefix.mpr (List.prefix_append _ _)] at h
    cases h
  · rw [joinPath, joinPath, if_neg hrel, if_neg hrel]

theorem citation_classified {c : Citation} (h : classifyCitation w c = (some s, e)) : s.citation = c := by
  rw [classifyCitation] at h
  cases hr : resolve w c.path with
  | some target =>
    rw [hr] at h
    exact Option.some.inj (Prod.mk.inj h).1 ▸ rfl
  | none =>
    rw [hr] at h
    dsimp only at h
    split at h
    · exact Option.some.inj (Prod.mk.inj h).1 ▸ rfl
    split at h
    · exact Option.some.inj (Prod.mk.inj h).1 ▸ rfl
    · split at h <;> cases (Prod.mk.inj h).1

theorem mem_partition : ∀ s ∈ (partitionCitations w citations).localSources,
    classifyCitation w s.citation = (some s, none) := by
  induction citations with
  | nil => nofun
  | cons c cs ih =>
    rw [partitionCitations]
    cases hc : classifyCitation w c with
    | mk source error =>
      cases error with
      | some e => nofun
      | none =>
        cases source with
        | none => exact ih
        | some s =>
          refine List.forall_mem_cons.mpr ⟨?_, ih⟩
          rw [citation_classified hc, hc]

theorem routeClaim_unchanged {codeCommit : String} (h : routeClaim w codeCommit citations = some r)
    (hs : r.status = .provenUnchanged) :
    r.localSources = (partitionCitations w citations).localSources ∧
      ∀ s ∈ r.localSources, ∃ e, routeSource w codeCommit s = some (true, e) := by
  rw [routeClaim] at h
  dsimp only at h
  cases he : (partitionCitations w citations).error with
  | some e =>
    rw [he] at h
    obtain rfl := Option.some.inj h
    cases hs
  | none =>
    rw [he] at h
    obtain ⟨votes, hvotes, h⟩ := Option.bind_eq_some_iff.mp h
    split at h
    · obtain rfl := Option.some.inj h
      cases hs
    split at h
    · rename_i hall
      obtain rfl := Option.some.inj h
      refine ⟨rfl, fun s hmem => ?_⟩
      obtain ⟨v, hin, hv⟩ := mapM_mem hvotes hmem
      exact ⟨v.2, by rw [hv, ← List.all_eq_true.mp hall v hin]⟩
    · obtain rfl := Option.some.inj h
      cases hs

def keptSource (w : World) (codeCommit : String) (s : LocalCitation) : LocalSource where
  citation := s.citation
  kind := s.repository.name ++ " commit"
  current := currentLines w s.target
  historical := currentLines w s.target
  provenanceLabel := s.repository.name ++ " commit " ++
    (match s.repository with
      | .code => codeCommit
      | .memory => (memoryCommit w codeCommit).text.getD "")

theorem classified_target (hs : classifyCitation w s.citation = (some s, none)) {target : PosixPath}
    (hr : resolve w s.citation.path = some target) :
    s.target = some target ∧ s.repository = if under target w.code.root then .code else .memory := by
  rw [classifyCitation, hr] at hs
  have h := Option.some.inj (Prod.mk.inj hs).1
  rw [← h]
  exact ⟨rfl, rfl⟩

theorem memory_target (hs : classifyCitation w s.citation = (some s, none)) (hrep : s.repository = .memory)
    (hfile : (w.file (joinPath w.memory.root s.citation.path)).isSome) :
    s.target = some (joinPath w.memory.root s.citation.path) := by
  by_cases hcode : (w.file (joinPath w.code.root s.citation.path)).isSome
  · have hr : resolve w s.citation.path = some (joinPath w.code.root s.citation.path) := if_pos hcode
    obtain ⟨ht, hk⟩ := classified_target hs hr
    have hout : under (joinPath w.code.root s.citation.path) w.code.root = false := by
      cases hu : under (joinPath w.code.root s.citation.path) w.code.root with
      | false => rfl
      | true =>
        rw [hrep, hu] at hk
        cases hk
    rw [ht, joinPath_under hout w.memory.root]
  · have hr : resolve w s.citation.path = some (joinPath w.memory.root s.citation.path) := by
      rw [resolve, if_neg hcode, if_pos hfile]
    exact (classified_target hs hr).1

theorem lines_kept {target : Option PosixPath} {path : PosixPath} {text : List Char} {name : String}
    (ht : target = some path) (hfile : w.file path = some text)
    (hat : fileAt w kind commit name = ⟨some (String.ofList (universal text)), none⟩) :
    historicalLines (fileAt w kind commit name) = currentLines w target ∧ (currentLines w target).isSome := by
  rw [ht, hat, historicalLines, currentLines, Option.bind_some, hfile]
  simp

section
variable (hcode : Tracks w .code) (hmemory : Tracks w .memory)
include hcode hmemory

theorem source_kept {codeCommit : String} {s : LocalCitation} {e : Option String}
    (hs : classifyCitation w s.citation = (some s, none)) (h : routeSource w codeCommit s = some (true, e)) :
    sourceOf w codeCommit s.citation = (some (keptSource w codeCommit s), none) ∧ (currentLines w s.target).isSome := by
  rw [routeSource] at h
  cases hrep : s.repository with
  | code =>
    rw [hrep] at h
    obtain ⟨text, hfile, hat⟩ := unchanged_text hcode h
    have hfile' : w.file (joinPath w.code.root s.citation.path) = some text := hfile
    have hr : resolve w s.citation.path = some (joinPath w.code.root s.citation.path) := by
      rw [resolve, hfile']
      rfl
    obtain ⟨hlines, hsome⟩ := lines_kept (classified_target hs hr).1 hfile' hat
    refine ⟨?_, hsome⟩
    rw [sourceOf, hs]
    dsimp only
    rw [hrep]
    dsimp only
    rw [codeSource, hlines, keptSource, hrep]
    rfl
  | memory =>
    rw [hrep] at h
    dsimp only at h
    cases hc : (memoryCommit w codeCommit).text with
    | none =>
      rw [hc] at h
      cases h
    | some commit =>
      rw [hc] at h
      obtain ⟨text, hfile, hat⟩ := unchanged_text hmemory h
      have hfile' : w.file (joinPath w.memory.root s.citation.path) = some text := hfile
      obtain ⟨hlines, hsome⟩ := lines_kept (memory_target hs hrep (by rw [hfile']; rfl)) hfile' hat
      refine ⟨?_, hsome⟩
      rw [sourceOf, hs]
      dsimp only
      rw [hrep]
      dsimp only
      rw [memorySource]
      dsimp only
      rw [hc]
      dsimp only
      rw [hlines, hat, keptSource, hrep, hc]
      rfl

end

/-! ## Anchors -/

def resolutions (w : World) (views : Views) (sources : List LocalCitation) (anchor : Anchor) : Nat :=
  (sources.flatMap fun s => (views.extents s.citation.path ((currentLines w s.target).getD []) anchor).map fun extent =>
    (s.citation.path, extent)).dedup.length

theorem length_selected (found : List Candidate) : (selected found).length = (found.map Candidate.key).dedup.length := by
  have hperm : (Dict.ofEntries (found.map fun c => (c.key, c))).keys.Perm (found.map Candidate.key).dedup := by
    refine (List.perm_ext_iff_of_nodup (Dict.nodup _) (List.nodup_dedup _)).mpr fun k => ?_
    rw [List.mem_dedup]
    have := Dict.mem_keys_ofEntries (x := k) (l := found.map fun c => (c.key, c))
    rw [List.map_map] at this
    exact this
  rw [← hperm.length_eq, selected, Dict.values, Dict.keys, List.length_map, List.length_map]

variable {views : Views} {codeCommit : String}

variable {anchor : Anchor}

theorem keys_kept (h : (currentLines w s.target).isSome) :
    (candidates views anchor (keptSource w codeCommit s) (keptSource w codeCommit s).current).map Candidate.key =
      (views.extents s.citation.path ((currentLines w s.target).getD []) anchor).map fun extent => (s.citation.path, extent) := by
  obtain ⟨lines, hlines⟩ := Option.isSome_iff_exists.mp h
  have hcurrent : (keptSource w codeCommit s).current = some lines := hlines
  rw [hcurrent, hlines, candidates, List.map_map]
  rfl

variable {sources : List LocalCitation}

theorem length_kept (h : ∀ s ∈ sources, (currentLines w s.target).isSome) :
    (selectedCurrent views anchor (sources.map (keptSource w codeCommit))).length = resolutions w views sources anchor := by
  rw [selectedCurrent, length_selected, resolutions, List.flatMap_map, List.map_flatMap]
  exact congrArg (fun l => l.dedup.length) (List.flatMap_congr fun s hs => keys_kept (h s hs))

theorem historical_kept (anchor : Anchor) (sources : List LocalCitation) :
    selectedHistorical views anchor (sources.map (keptSource w codeCommit)) =
      selectedCurrent views anchor (sources.map (keptSource w codeCommit)) := by
  rw [selectedHistorical, selectedCurrent, List.flatMap_map, List.flatMap_map]
  rfl

theorem anchorChange_kept (h : ∀ s ∈ sources, (currentLines w s.target).isSome)
    (dependencySources : Bool) : anchorChange views anchor (sources.map (keptSource w codeCommit)) dependencySources =
      ⟨if resolutions w views sources anchor = 0 ∧ dependencySources = false then [notResolved anchor] else [], [],
        if 2 ≤ resolutions w views sources anchor then [ambiguousBefore anchor (resolutions w views sources anchor)] else []⟩ := by
  rw [← @length_kept w views codeCommit anchor sources h, anchorChange, historical_kept]
  cases selectedCurrent views anchor (sources.map (keptSource w codeCommit)) with
  | nil => cases dependencySources <;> rfl
  | cons one found => cases found with
    | nil => simp [Changes.none]
    | cons two found => simp

def ambiguities (w : World) (views : Views) (sources : List LocalCitation) (anchors : List Anchor) : List String :=
  anchors.flatMap fun a => if 2 ≤ resolutions w views sources a then [ambiguousBefore a (resolutions w views sources a)] else []

theorem localChanges_kept (h : ∀ s ∈ sources, (currentLines w s.target).isSome) (dependencySources : Bool) :
    localChanges views anchors (sources.map (keptSource w codeCommit)) dependencySources =
      ⟨anchors.flatMap fun a => if resolutions w views sources a = 0 ∧ dependencySources = false then [notResolved a] else [], [],
        ambiguities w views sources anchors⟩ := by
  have hcurrent : (sources.map (keptSource w codeCommit)).any (fun s => s.current.isNone) = false := by
    refine List.any_eq_false.mpr fun s hs => ?_
    obtain ⟨l, hl, rfl⟩ := List.mem_map.mp hs
    have : (keptSource w codeCommit l).current.isSome := h l hl
    simp [Option.isNone_iff_eq_none, Option.isSome_iff_ne_none.mp this]
  rw [localChanges, hcurrent]
  simp only [Bool.false_eq_true, if_false, List.flatMap_map, anchorChange_kept h, ambiguities, Changes.mk.injEq, and_true, true_and]
  exact List.flatMap_eq_nil_iff.mpr fun _ _ => rfl

/-! ## Findings -/

theorem provenanceFinding_inj {a b : String}
    (h : provenanceFinding w document claim a = provenanceFinding w document claim b) : a = b := by
  have hmessage := congrArg (fun f => f.message.toList) h
  simp only [provenanceFinding, String.toList_append, List.append_assoc, List.append_cancel_left_eq] at hmessage
  exact String.toList_inj.mp (List.append_cancel_right hmessage)

theorem verdict_more {more : List String} :
    verdict w document claim ⟨changed, [], invalid⟩ = verdict w document claim ⟨changed, [], more ++ invalid⟩ ↔
      more = [] ∨ (invalid ≠ [] ∧ joined (more ++ invalid) = joined invalid) := by
  cases more with
  | nil => simp
  | cons m more =>
    have hne : (m :: more) ++ invalid ≠ [] := List.cons_ne_nil _ _
    rw [or_iff_right (List.cons_ne_nil m more), verdict, verdict]
    dsimp only
    rw [if_pos hne]
    by_cases hi : invalid = []
    · rw [if_neg (not_not_intro hi)]
      refine iff_of_false ?_ fun h => h.1 hi
      split
      · intro h
        have hcode : REOPENED = INVALID := congrArg Finding.code (Option.some.inj h)
        exact absurd hcode (by decide)
      · nofun
    · rw [if_pos hi]
      exact ⟨fun h => ⟨hi, (provenanceFinding_inj (Option.some.inj h)).symm⟩, fun h => by rw [h.2]⟩

theorem verdict_none :
    verdict w document claim ⟨[], [], []⟩ = verdict w document claim ⟨changed, [], invalid⟩ ↔ changed = [] ∧ invalid = [] := by
  by_cases hi : invalid = []
  · by_cases hc : changed = []
    · rw [hi, hc]
      simp
    · simp [verdict, hi, hc]
  · simp [verdict, hi]

/-- The comparison has nothing to say: every anchor resolves once, or not at all beside a dependency. -/
def Settled (w : World) (views : Views) (claim : Claim) (r : ClaimRoute) : Prop :=
  ∀ a ∈ claim.anchors, resolutions w views r.localSources a = 1 ∨
    (resolutions w views r.localSources a = 0 ∧ r.dependencies ≠ [])

/-- The comparison of the dependencies already fails with the texts that the ambiguous anchors would add. -/
def Masked (w : World) (views : Views) (codeCommit : String) (claim : Claim) (r : ClaimRoute) : Prop :=
  r.dependencies ≠ [] ∧ (dependencyChanges w codeCommit r.dependencies).2 ≠ [] ∧
    joined (ambiguities w views r.localSources claim.anchors ++ (dependencyChanges w codeCommit r.dependencies).2) =
      joined (dependencyChanges w codeCommit r.dependencies).2

theorem ambiguities_eq_nil :
    ambiguities w views sources anchors = [] ↔ ∀ a ∈ anchors, resolutions w views sources a < 2 := by
  rw [ambiguities, List.flatMap_eq_nil_iff]
  refine forall₂_congr fun a _ => ?_
  split <;> simp <;> omega

theorem evaluate_skipped (hs : r.status = .provenUnchanged) :
    evaluateRoute w document claim views codeCommit r =
      verdict w document claim ⟨(if r.dependencies = [] then ([], []) else dependencyChanges w codeCommit r.dependencies).1, [],
        (if r.dependencies = [] then ([], []) else dependencyChanges w codeCommit r.dependencies).2⟩ := by
  rw [evaluateRoute, if_neg (by rw [hs]; nofun), if_neg (by rw [hs]; nofun)]
  rfl

theorem evaluate_no_local (hs : r.status = .provenUnchanged) (hne : r.localSources = []) :
    evaluateRoute w document claim views codeCommit r =
      evaluateRoute w document claim views codeCommit { r with status := .semanticRequired } := by
  rw [evaluate_skipped hs]
  symm
  rw [evaluateRoute, if_neg nofun]
  dsimp only
  rw [if_pos rfl, hne]
  rfl

section
variable (hcode : Tracks w .code) (hmemory : Tracks w .memory) {claim : Claim} {r : ClaimRoute}
  (hr : routeClaim w codeCommit claim.citations = some r) (hs : r.status = .provenUnchanged)
include hcode hmemory hr hs

theorem kept_route : ∀ s ∈ r.localSources,
    sourceOf w codeCommit s.citation = (some (keptSource w codeCommit s), none) ∧ (currentLines w s.target).isSome := by
  obtain ⟨hlocal, hvotes⟩ := routeClaim_unchanged hr hs
  intro s hmem
  obtain ⟨e, he⟩ := hvotes s hmem
  exact source_kept hcode hmemory (mem_partition s (hlocal ▸ hmem)) he

variable {document : String}

theorem evaluate_compared (hne : r.localSources ≠ []) :
    evaluateRoute w document claim views codeCommit { r with status := .semanticRequired } =
      verdict w document claim ⟨(claim.anchors.flatMap fun a =>
          if resolutions w views r.localSources a = 0 ∧ (!r.dependencies.isEmpty) = false then [notResolved a] else []) ++
            (if r.dependencies = [] then ([], []) else dependencyChanges w codeCommit r.dependencies).1, [],
        ambiguities w views r.localSources claim.anchors ++
          (if r.dependencies = [] then ([], []) else dependencyChanges w codeCommit r.dependencies).2⟩ := by
  have hkept := kept_route hcode hmemory hr hs
  have hreads : r.localSources.map (fun s => sourceOf w codeCommit s.citation) =
      r.localSources.map fun s => (some (keptSource w codeCommit s), none) :=
    List.map_congr_left fun s hmem => (hkept s hmem).1
  have hsources : r.localSources.map (keptSource w codeCommit) ≠ [] := by simpa using hne
  have herrors : (r.localSources.map fun s => (some (keptSource w codeCommit s), (none : Option String))).filterMap
      (fun q => q.2.filter (· ≠ "")) = [] := by
    rw [List.filterMap_map, List.filterMap_eq_nil_iff]
    exact fun _ _ => rfl
  have hread : (r.localSources.map fun s => (some (keptSource w codeCommit s), (none : Option String))).filterMap
      (fun q => if (q.2.filter (· ≠ "")).isSome then none else q.1) = r.localSources.map (keptSource w codeCommit) := by
    rw [List.filterMap_map, ← List.filterMap_eq_map]
    rfl
  rw [evaluateRoute, if_neg nofun]
  dsimp only
  rw [if_pos rfl, hreads, herrors, hread, if_neg hsources, localChanges_kept fun s hmem => (hkept s hmem).2]
  rfl

theorem skipped_iff (hne : r.localSources ≠ []) :
    evaluateRoute w document claim views codeCommit r =
        evaluateRoute w document claim views codeCommit { r with status := .semanticRequired } ↔
      Settled w views claim r ∨ Masked w views codeCommit claim r := by
  rw [evaluate_skipped hs, evaluate_compared hcode hmemory hr hs hne]
  by_cases hd : r.dependencies = []
  · have hmasked : ¬ Masked w views codeCommit claim r := fun h => h.1 hd
    rw [if_pos hd, List.append_nil, List.append_nil, verdict_none, ambiguities_eq_nil, List.flatMap_eq_nil_iff,
      or_iff_left hmasked]
    simp only [hd, List.isEmpty_nil, Bool.not_true, and_true]
    constructor
    · rintro ⟨hzero, htwo⟩ a ha
      refine .inl ?_
      have hz := hzero a ha
      have ht := htwo a ha
      split at hz
      · cases hz
      · omega
    intro h
    refine ⟨fun a ha => if_neg ?_, fun a ha => ?_⟩ <;>
    · have := (h a ha).resolve_right fun hc => hc.2 hd
      omega
  · have hlocal : (claim.anchors.flatMap fun a =>
        if resolutions w views r.localSources a = 0 ∧ (!r.dependencies.isEmpty) = false then [notResolved a] else []) = [] := by
      refine List.flatMap_eq_nil_iff.mpr fun a _ => if_neg ?_
      simp [hd]
    rw [if_neg hd, hlocal, List.nil_append, verdict_more, ambiguities_eq_nil]
    refine or_congr ⟨fun h a ha => ?_, fun h a ha => ?_⟩ ⟨fun h => ⟨hd, h⟩, fun h => h.2⟩
    · have := h a ha
      rcases Nat.eq_zero_or_pos (resolutions w views r.localSources a) with hz | hp
      · exact .inr ⟨hz, hd⟩
      · exact .inl (by omega)
    · rcases h a ha with h | ⟨h, -⟩ <;> omega

end

end

def quiet (stdout : List Char) : Completed := ⟨0, stdout, []⟩

/-- A clean code repository with the one file `a.txt`, and an empty memory. -/
def oneFile (text : List Char) : World where
  code := {
    root := PosixPath.ofText "/code"
    status := quiet []
    headTree := quiet "a.txt\x00".toList
    diffTree := fun _ => quiet []
    showFile := fun _ path => if path = "a.txt" then quiet text else ⟨128, [], []⟩
    revParse := fun name => quiet name.toList
    isAncestor := fun _ _ => quiet [] }
  memory := {
    root := PosixPath.ofText "/memory"
    status := quiet []
    headTree := quiet []
    diffTree := fun _ => quiet []
    showFile := fun _ _ => ⟨128, [], []⟩
    revParse := fun name => quiet name.toList
    isAncestor := fun _ _ => quiet [] }
  file := fun path => if path = PosixPath.ofText "/code/a.txt" then some text else none
  pathExists := fun path => decide (path = PosixPath.ofText "/code/a.txt")
  ledger := .error "memory.md is missing"
  dependencyVersions := fun _ _ _ => (none, none, none)
  repr := id
  reprList := "".intercalate

/-- The occurrences of a symbol in a file that no grammar reads, where each line is one word. -/
def wordViews : Views where
  extents := fun _ lines anchor => (lines.zipIdx.filter fun l => decide (l.1 = anchor.text.toList)).map fun l =>
    ⟨l.2 + 1, l.2 + 1, .occurrence⟩
  fingerprint := fun _ lines _ extent => String.ofList ((lines.drop (extent.start - 1)).headD [])

theorem fileAt_oneFile (text : List Char) (commit path : String) :
    fileAt (oneFile text) .code commit path = if path = "a.txt" then ⟨some (String.ofList text), none⟩
      else ⟨none, some (path ++ " did not exist at " ++ commit)⟩ := by
  by_cases h : path = "a.txt" <;> simp [fileAt, World.repository, oneFile, h, quiet, gitError, splitlines, crlf, breakLines]

theorem file_oneFile (text : List Char) : (oneFile text).file (joinPath (oneFile text).code.root "a.txt") = some text := by
  have hpath : joinPath (PosixPath.ofText "/code") "a.txt" = PosixPath.ofText "/code/a.txt" := by decide
  simp only [oneFile, hpath, if_true]

theorem tracks_oneFile {text : List Char} (h : '\r' ∉ text) : Tracks (oneFile text) .code ∧ Tracks (oneFile text) .memory := by
  refine ⟨⟨fun {ps hs} _ hh path hmem _ => ?_, fun {commit ds} _ path t _ hat => ?_⟩, ⟨fun {ps hs} _ hh path hmem _ => ?_, ?_⟩⟩
  · have hhs : hs = ["a.txt".toList] := (Except.ok.inj (Option.some.inj hh)).symm
    rw [hhs, List.mem_singleton] at hmem
    obtain rfl := String.toList_inj.mp hmem
    refine ⟨text, file_oneFile text, ?_⟩
    rw [universal_of_no_cr h, fileAt_oneFile, if_pos rfl]
  · rw [fileAt_oneFile] at hat ⊢
    split at hat
    · rename_i hp
      rw [if_pos hp, hat]
    · cases hat
  · have hhs : hs = [] := (Except.ok.inj (Option.some.inj hh)).symm
    rw [hhs] at hmem
    cases hmem
  · intro commit ds _ path t _ hat
    cases hat

def wordClaim : Claim := ⟨1, [⟨.symbol, "g"⟩], [⟨"a.txt:1-1", "a.txt", 1, 1⟩], [], 0⟩

def wordRoute : ClaimRoute :=
  ⟨[⟨⟨"a.txt:1-1", "a.txt", 1, 1⟩, .code, some (PosixPath.ofText "/code/a.txt")⟩], [], .provenUnchanged, none⟩

theorem routeClaim_word (text : List Char) : routeClaim (oneFile text) "c0ffee0" wordClaim.citations = some wordRoute := by
  have hresolve : resolve (oneFile text) "a.txt" = some (PosixPath.ofText "/code/a.txt") := by
    have hpath : joinPath (PosixPath.ofText "/code") "a.txt" = PosixPath.ofText "/code/a.txt" := by decide
    rw [resolve, file_oneFile text]
    exact congrArg some hpath
  have hclass : classifyCitation (oneFile text) ⟨"a.txt:1-1", "a.txt", 1, 1⟩ =
      (some ⟨⟨"a.txt:1-1", "a.txt", 1, 1⟩, .code, some (PosixPath.ofText "/code/a.txt")⟩, none) := by
    rw [classifyCitation, hresolve]
    rfl
  have hroute : routeSource (oneFile text) "c0ffee0"
      ⟨⟨"a.txt:1-1", "a.txt", 1, 1⟩, .code, some (PosixPath.ofText "/code/a.txt")⟩ = some (true, none) := rfl
  have hpart : partitionCitations (oneFile text) wordClaim.citations = ⟨wordRoute.localSources, [], none⟩ := by
    rw [wordClaim, partitionCitations, hclass]
    rfl
  rw [routeClaim, hpart]
  dsimp only [wordRoute]
  rw [List.mapM_cons, hroute]
  rfl

section
variable (views : Views) (anchor : Anchor) (sources : List LocalSource) (dependencySources : Bool)

/-- The construct is new since the stamp, or it was found once and nothing found now is the same. -/
inductive ChangedSince : Prop
  | appeared : selectedHistorical views anchor sources = [] → selectedCurrent views anchor sources ≠ [] → ChangedSince
  | changed (before : Candidate) : selectedHistorical views anchor sources = [before] →
      (∀ now ∈ selectedCurrent views anchor sources, before.fingerprint ≠ now.fingerprint) → ChangedSince

def LocalSource.holds (s : LocalSource) (c : Candidate) : Prop :=
  s.citation.start ≤ c.extent.start ∧ c.extent.start ≤ s.citation.stop

def OwnRangeHolds (now : Candidate) : Prop :=
  ∃ s ∈ sources, s.citation.path = now.source.citation.path ∧ s.holds now

def PointerCurrent : Prop := ∃ now, selectedCurrent views anchor sources = [now] ∧ OwnRangeHolds sources now

def Changes.Surfaced (c : Changes) : Prop := c.surfaced ≠ []

def Changes.Enforced (c : Changes) : Prop := c.surfaced = [] ∧ (c.changed ≠ [] ∨ c.invalid ≠ [])

/-- A change is surfaced where its own pointer is current, and enforced elsewhere. -/
def RuledByPointer : Prop :=
  ChangedSince views anchor sources →
    ((anchorChange views anchor sources dependencySources).Surfaced ↔ PointerCurrent views anchor sources) ∧
    (¬PointerCurrent views anchor sources → (anchorChange views anchor sources dependencySources).Enforced)

/-- No range of another file holds the line number of a construct that no range of its own file holds. -/
def NoStrangerVouches : Prop :=
  ∀ now, selectedCurrent views anchor sources = [now] →
    (∃ s ∈ sources, s.citation.path ≠ now.source.citation.path ∧ s.holds now) → OwnRangeHolds sources now

end

section
variable {views : Views} {anchor : Anchor} {sources : List LocalSource} {dependencySources : Bool}

variable {now : Candidate} {detail : String}

theorem anchorInCitedRange_iff : anchorInCitedRange now sources = true ↔ ∃ s ∈ sources, s.holds now := by
  simp [anchorInCitedRange, LocalSource.holds]

theorem inRange_of_own (h : OwnRangeHolds sources now) : anchorInCitedRange now sources = true := by
  obtain ⟨s, hs, -, hholds⟩ := h
  exact anchorInCitedRange_iff.mpr ⟨s, hs, hholds⟩

theorem inRange_cases (h : anchorInCitedRange now sources = true) :
    OwnRangeHolds sources now ∨ ∃ s ∈ sources, s.citation.path ≠ now.source.citation.path ∧ s.holds now := by
  obtain ⟨s, hs, hholds⟩ := anchorInCitedRange_iff.mp h
  by_cases hpath : s.citation.path = now.source.citation.path
  · exact .inl ⟨s, hs, hpath, hholds⟩
  · exact .inr ⟨s, hs, hpath, hholds⟩

theorem changeOf_surfaced : (changeOf now sources detail).Surfaced ↔ anchorInCitedRange now sources = true := by
  unfold changeOf Changes.Surfaced
  split <;> simp_all

theorem changeOf_enforced (h : anchorInCitedRange now sources ≠ true) : (changeOf now sources detail).Enforced := by
  rw [changeOf, if_neg h]
  exact ⟨rfl, .inl (by simp)⟩

theorem anchorChange_once (hc : ChangedSince views anchor sources) {now : Candidate}
    (hnow : selectedCurrent views anchor sources = [now]) :
    ∃ detail, anchorChange views anchor sources dependencySources = changeOf now sources detail := by
  cases hc with
  | appeared hbefore _ =>
    rw [anchorChange, hbefore, hnow]
    exact ⟨_, rfl⟩
  | changed before hbefore hne =>
    rw [anchorChange, hbefore, hnow]
    dsimp only
    rw [if_pos (hne now (by rw [hnow]; exact List.mem_singleton_self _))]
    exact ⟨_, rfl⟩

theorem anchorChange_otherwise (hc : ChangedSince views anchor sources)
    (hnow : ∀ now, selectedCurrent views anchor sources ≠ [now]) :
    (anchorChange views anchor sources dependencySources).Enforced := by
  cases hc with
  | appeared hbefore hsome =>
    rw [anchorChange, hbefore]
    rcases h : selectedCurrent views anchor sources with _ | ⟨a, _ | ⟨b, rest⟩⟩
    · exact absurd h hsome
    · exact absurd h (hnow a)
    · exact ⟨rfl, .inr (by simp)⟩
  | changed before hbefore _ =>
    rw [anchorChange, hbefore]
    rcases h : selectedCurrent views anchor sources with _ | ⟨a, _ | ⟨b, rest⟩⟩
    · exact ⟨rfl, .inl (by simp)⟩
    · exact absurd h (hnow a)
    · exact ⟨rfl, .inr (by simp)⟩

theorem Changes.Enforced.not_surfaced {c : Changes} (h : c.Enforced) : ¬c.Surfaced := fun hs => hs h.1

/-- **A changed anchor is ruled by its own pointer exactly where no range of another file vouches for it.** -/
theorem surfaced_by_own_pointer :
    RuledByPointer views anchor sources dependencySources ↔
      (ChangedSince views anchor sources → NoStrangerVouches views anchor sources) := by
  constructor
  · intro hruled hc now hnow hstranger
    obtain ⟨detail, hchange⟩ := @anchorChange_once views anchor sources dependencySources hc now hnow
    obtain ⟨s, hs, -, hholds⟩ := hstranger
    have hsurfaced : (anchorChange views anchor sources dependencySources).Surfaced := by
      rw [hchange, changeOf_surfaced, anchorInCitedRange_iff]
      exact ⟨s, hs, hholds⟩
    obtain ⟨now', hnow', hown⟩ := (hruled hc).1.mp hsurfaced
    obtain rfl : now = now' := (List.cons.inj (hnow.symm.trans hnow')).1
    exact hown
  intro hstranger hc
  by_cases honce : ∃ now, selectedCurrent views anchor sources = [now]
  · obtain ⟨now, hnow⟩ := honce
    obtain ⟨detail, hchange⟩ := @anchorChange_once views anchor sources dependencySources hc now hnow
    have hrange : anchorInCitedRange now sources = true ↔ PointerCurrent views anchor sources := by
      constructor
      · intro hin
        rcases inRange_cases hin with hown | hother
        · exact ⟨now, hnow, hown⟩
        · exact ⟨now, hnow, hstranger hc now hnow hother⟩
      intro hpointer
      obtain ⟨now', hnow', hown⟩ := hpointer
      obtain rfl : now = now' := (List.cons.inj (hnow.symm.trans hnow')).1
      exact inRange_of_own hown
    rw [hchange, changeOf_surfaced]
    exact ⟨hrange, fun hno => changeOf_enforced fun hin => hno (hrange.mp hin)⟩
  · have henforced := @anchorChange_otherwise views anchor sources dependencySources hc fun now h => honce ⟨now, h⟩
    have hno : ¬PointerCurrent views anchor sources := fun hpointer => honce ⟨hpointer.choose, hpointer.choose_spec.1⟩
    exact ⟨⟨fun hs => absurd hs henforced.not_surfaced, fun hp => absurd hp hno⟩, fun _ => henforced⟩

end

def wordLines (text : String) : List (List Char) := Lib.Lines.splitlines text.toList

/-- `b.txt` gained the word on its third line after the stamp, and is cited at its first. -/
def gained : LocalSource :=
  ⟨⟨"b.txt:1-1", "b.txt", 1, 1⟩, "code commit", some (wordLines "x\ny\ng"), some (wordLines "x\ny"), "code commit c0ffee0"⟩

/-- `a.txt` never has the word, and is cited at its third line. -/
def stranger : LocalSource :=
  ⟨⟨"a.txt:3-3", "a.txt", 3, 3⟩, "code commit", some (wordLines "p\nq\nr"), some (wordLines "p\nq\nr"), "code commit c0ffee0"⟩

/-- The third line of the other file keeps the change out of the enforced ones. -/
theorem stranger_vouches : ¬RuledByPointer wordViews ⟨.symbol, "g"⟩ [gained, stranger] false := by
  intro h
  have hnow : selectedCurrent wordViews ⟨.symbol, "g"⟩ [gained, stranger] = [⟨gained, ⟨3, 3, .occurrence⟩, "g"⟩] := rfl
  have hc : ChangedSince wordViews ⟨.symbol, "g"⟩ [gained, stranger] := .appeared rfl (by rw [hnow]; exact List.cons_ne_nil _ _)
  have hsurfaced : (anchorChange wordViews ⟨.symbol, "g"⟩ [gained, stranger] false).Surfaced := by
    unfold Changes.Surfaced
    decide
  obtain ⟨now, hnow', s, hs, hpath, hholds⟩ := (h hc).1.mp hsurfaced
  obtain rfl := (List.cons.inj (hnow.symm.trans hnow')).1
  rcases List.mem_cons.mp hs with rfl | hs
  · exact absurd hholds.2 (by decide)
  · obtain rfl := List.mem_singleton.mp hs
    exact absurd hpath (by decide)

end AgentsRemember.Citations
