import AgentsRemember.Lib.GitText
import AgentsRemember.Style.History

/-!
# Touched documents

Ambiguous provenance is debt in a document that the task did not touch. The
documents it touched are read out of the status text of the memory repository:
each line without its first three characters, behind its first arrow.
-/

namespace AgentsRemember.Citations

open Lib Lines GitStatus

def invalidProvenance : String := "citation_provenance_invalid"

def onboardingPrefix : List Char := "onboarding/".toList

def onboardingPathOf (line : List Char) : Option (List Char) :=
  let path := line.drop 3
  let path :=
    match findFirst arrow path with
    | some (_, target) => target
    | none => path
  if onboardingPrefix.isPrefixOf path then some (path.drop onboardingPrefix.length) else none

/-- `_modified_onboarding_paths`; `none` is a `git status` that failed. -/
def modifiedOnboardingPaths (status : Option (List Char)) : Option (List (List Char)) :=
  status.map fun text => (splitlines (universal text)).filterMap onboardingPathOf

def isDebt (modified : List (List Char)) (finding : QualityFinding) : Bool :=
  finding.code = invalidProvenance && finding.severity ≠ "warning" && decide (finding.path ∉ modified)

def demoted (finding : QualityFinding) : QualityFinding :=
  { check := finding.check
    path := finding.path
    line := finding.line
    severity := "warning"
    code := finding.code
    message := finding.message }

/-- `_demote_preexisting_provenance_debt`: the enforced findings, and the debt. -/
def demotePreexistingProvenanceDebt (findings : List QualityFinding) (status : Option (List Char)) :
    List QualityFinding × List QualityFinding :=
  match modifiedOnboardingPaths status with
  | none => (findings, [])
  | some modified =>
    (findings.filter fun f => !isDebt modified f, (findings.filter fun f => isDebt modified f).map demoted)

/-! ## What a document's path should be -/

def documentOf (e : Entry) : Option (List Char) :=
  if onboardingPrefix.isPrefixOf (byteText e.path) then some ((byteText e.path).drop onboardingPrefix.length) else none

def Touches (entries : List Entry) (path : List Char) : Prop := ∃ e ∈ entries, documentOf e = some path

def firstName (e : Entry) : List Char := written (e.source.getD e.path)

def afterFirst (e : Entry) : List Char :=
  match e.source with
  | none => []
  | some _ => arrow ++ written e.path

/-- Git writes the entry's path without quotes, and no arrow into a name before it. -/
def Legible (e : Entry) : Prop := quoted e.path = false ∧ findFirst arrow (firstName e) = none

def ArrowWithin (e : Entry) (path : List Char) : Prop :=
  ∃ before behind, findFirst arrow (firstName e) = some (before, behind) ∧
    behind ++ afterFirst e = onboardingPrefix ++ path

/-- Every touched document is written legibly, or stands behind an arrow in a name; behind such an arrow stand
touched documents only. -/
structure AllLegible (entries : List Entry) : Prop where
  touched : ∀ e ∈ entries, ∀ path, documentOf e = some path →
    ∃ e' ∈ entries, (Legible e' ∧ documentOf e' = some path) ∨ ArrowWithin e' path
  within : ∀ e ∈ entries, ∀ path, ArrowWithin e path → Touches entries path

/-! ## Finding the arrow -/

variable {p path : List Char} {e : Entry} {modified : List (List Char)} {finding : QualityFinding}

theorem isPrefixOf_eq_some {xs : List Char} {ys : List Char} :
    (if p.isPrefixOf xs then some (xs.drop p.length) else none) = some ys ↔ xs = p ++ ys := by
  constructor
  · intro h
    split at h
    · rename_i hp
      obtain ⟨zs, rfl⟩ := List.isPrefixOf_iff_prefix.mp hp
      rw [List.drop_left, Option.some.injEq] at h
      rw [h]
    · cases h
  · rintro rfl
    rw [if_pos (List.isPrefixOf_iff_prefix.mpr (List.prefix_append p ys)), List.drop_left]

theorem findFirst_length : ∀ {xs before behind : List Char},
    findFirst p xs = some (before, behind) → p.length ≤ xs.length
  | [], before, behind, h => by
    rw [findFirst] at h
    split at h
    · rename_i hp
      rw [hp]
    · cases h
  | c :: cs, before, behind, h => by
    rw [findFirst] at h
    split at h
    · rename_i hp
      exact (List.isPrefixOf_iff_prefix.mp hp).length_le
    · obtain ⟨⟨before', behind'⟩, hrest, -⟩ := Option.map_eq_some_iff.mp h
      exact (findFirst_length hrest).trans (Nat.le_succ cs.length)

theorem findFirst_append : ∀ {xs before behind : List Char} (ys : List Char),
    findFirst p xs = some (before, behind) → findFirst p (xs ++ ys) = some (before, behind ++ ys)
  | [], before, behind, ys, h => by
    rw [findFirst] at h
    split at h
    · rename_i hp
      cases h
      subst hp
      cases ys <;> simp [findFirst]
    · cases h
  | c :: cs, before, behind, ys, h => by
    have hlen := findFirst_length h
    rw [findFirst] at h
    split at h
    · rename_i hp
      have hleft := List.isPrefixOf_iff_prefix.mp hp
      have happ : p.isPrefixOf (c :: (cs ++ ys)) = true :=
        List.isPrefixOf_iff_prefix.mpr (hleft.trans (List.prefix_append (c :: cs) ys))
      rw [List.cons_append, findFirst, if_pos happ]
      cases h
      rw [← List.cons_append, List.drop_append_of_le_length hleft.length_le]
    rename_i hp
    have happ : p.isPrefixOf (c :: (cs ++ ys)) = false := by
      rw [← Bool.not_eq_true, List.isPrefixOf_iff_prefix]
      intro hpre
      refine hp (List.isPrefixOf_iff_prefix.mpr ?_)
      exact List.prefix_of_prefix_length_le hpre (List.prefix_append (c :: cs) ys) hlen
    obtain ⟨⟨before', behind'⟩, hrest, heq⟩ := Option.map_eq_some_iff.mp h
    cases heq
    rw [List.cons_append, findFirst_cons happ, findFirst_append ys hrest]
    rfl

theorem findFirst_behind {p : List Char} (rest : List Char) (hp : p ≠ []) : ∀ {xs : List Char},
    (∀ ys zs, xs = ys ++ zs → zs ≠ [] → ¬ p <+: zs ++ p ++ rest) → findFirst p (xs ++ p ++ rest) = some (xs, rest)
  | [], _ => by
    cases p with
    | nil => exact absurd rfl hp
    | cons a p =>
      rw [List.nil_append, List.cons_append, findFirst, if_pos, ← List.cons_append, List.drop_left]
      exact List.isPrefixOf_iff_prefix.mpr (List.prefix_append (a :: p) rest)
  | c :: cs, h => by
    have hhead : p.isPrefixOf (c :: (cs ++ p ++ rest)) = false := by
      rw [← Bool.not_eq_true, List.isPrefixOf_iff_prefix]
      exact h [] (c :: cs) rfl (by simp)
    have htail := @findFirst_behind p rest hp cs fun ys zs heq => h (c :: ys) zs (by rw [heq]; rfl)
    rw [List.cons_append, List.cons_append, findFirst_cons hhead, htail]
    rfl

theorem not_prefix_of_findFirst : ∀ {xs ys zs : List Char}, findFirst p xs = none → xs = ys ++ zs → ¬ p <+: zs
  | [], ys, zs, h, heq => by
    obtain ⟨rfl, rfl⟩ := List.append_eq_nil_iff.mp heq.symm
    intro hp
    rw [List.prefix_nil] at hp
    subst hp
    cases h
  | c :: cs, ys, zs, h, heq => by
    rw [findFirst] at h
    split at h
    · cases h
    rename_i hp
    cases ys with
    | nil =>
      rw [List.nil_append] at heq
      rw [← heq, ← List.isPrefixOf_iff_prefix]
      exact hp
    | cons y ys =>
      rw [List.cons_append, List.cons.injEq] at heq
      exact not_prefix_of_findFirst (Option.map_eq_none_iff.mp h) heq.2

/-! ## One line -/

theorem byteChar_blank {b : UInt8} (h : byteChar b = ' ') : b = 32 := by
  have hall : ∀ n : Fin 256, byteChar (UInt8.ofNat n.val) = ' ' → UInt8.ofNat n.val = 32 := by decide +kernel
  have hb := hall ⟨b.toNat, b.toNat_lt⟩
  rw [UInt8.ofNat_toNat] at hb
  exact hb h

theorem no_arrow_across {name : Name} (h : findFirst arrow (written name) = none) (rest : List Char) :
    findFirst arrow (written name ++ arrow ++ rest) = some (written name, rest) := by
  refine findFirst_behind rest (by decide) ?_
  intro ys zs heq hzs hp
  rw [List.append_assoc] at hp
  rcases List.prefix_or_prefix_of_prefix hp (List.prefix_append zs (arrow ++ rest)) with hin | hin
  · exact not_prefix_of_findFirst h heq hin
  obtain ⟨z, zs, rfl⟩ := List.exists_cons_of_ne_nil hzs
  rw [written] at heq
  split at heq
  · -- the last character of a quoted name is its quote
    have hlast : (z :: zs).getLast? = some doubleQuote := by
      have hwhole := congrArg List.getLast? heq
      rw [List.getLast?_append_of_ne_nil _ (by simp), List.getLast?_append_of_ne_nil _ (by simp)] at hwhole
      exact hwhole.symm
    have hmem : doubleQuote ∈ arrow := hin.subset (List.mem_of_getLast? hlast)
    exact absurd hmem (by decide)
  rename_i hplain
  have hz : z = ' ' := by
    obtain ⟨tail, htail⟩ := hin
    exact (List.cons.inj htail).1
  have hmem : z ∈ byteText name := by
    rw [heq]
    exact List.mem_append_right ys List.mem_cons_self
  obtain ⟨b, hb, hbz⟩ := List.mem_map.mp hmem
  exact (escapeOf_of_not_quoted (by simpa using hplain) hb).2 (byteChar_blank (hbz.trans hz))

theorem names_eq (e : Entry) : e.names = firstName e ++ afterFirst e := by
  rw [Entry.names, firstName, afterFirst]
  cases e.source with
  | none => exact (List.append_nil _).symm
  | some source => exact List.append_assoc ..

theorem onboardingPrefix_ne_nil : onboardingPrefix ≠ [] := by decide

theorem written_document :
    written e.path = onboardingPrefix ++ path ↔ quoted e.path = false ∧ documentOf e = some path := by
  rw [written, documentOf, isPrefixOf_eq_some]
  cases hq : quoted e.path with
  | true =>
    rw [if_pos rfl]
    constructor
    · intro h
      have hhead : some doubleQuote = onboardingPrefix.head? := by
        have hfirst := congrArg List.head? h
        rwa [List.head?_append_of_ne_nil _ onboardingPrefix_ne_nil] at hfirst
      exact absurd hhead (by decide)
    · intro h
      cases h.1
  | false =>
    rw [if_neg (by decide)]
    exact (and_iff_right rfl).symm

theorem onboardingPathOf_line :
    onboardingPathOf e.line = some path ↔ (Legible e ∧ documentOf e = some path) ∨ ArrowWithin e path := by
  have hdrop : e.line.drop 3 = firstName e ++ afterFirst e := names_eq e
  rw [onboardingPathOf, isPrefixOf_eq_some, hdrop]
  cases hfind : findFirst arrow (firstName e) with
  | some found =>
    obtain ⟨before, behind⟩ := found
    rw [findFirst_append _ hfind]
    constructor
    · intro h
      exact .inr ⟨before, behind, hfind, h⟩
    rintro (⟨⟨-, hnone⟩, -⟩ | ⟨before', behind', hfound, h⟩)
    · rw [hfind] at hnone
      cases hnone
    rw [hfind] at hfound
    cases hfound
    exact h
  | none =>
    have htext : (match findFirst arrow (firstName e ++ afterFirst e) with
        | some (_, target) => target
        | none => firstName e ++ afterFirst e) = written e.path := by
      cases hs : e.source with
      | none =>
        have hfirst : firstName e = written e.path := by rw [firstName, hs]; rfl
        have hafter : afterFirst e = [] := by rw [afterFirst, hs]
        rw [hafter, List.append_nil, hfind, hfirst]
      | some source =>
        have hfirst : firstName e = written source := by rw [firstName, hs]; rfl
        have hafter : afterFirst e = arrow ++ written e.path := by rw [afterFirst, hs]
        rw [hfirst] at hfind
        rw [hfirst, hafter, ← List.append_assoc, no_arrow_across hfind]
    rw [htext, written_document]
    constructor
    · rintro ⟨hq, hdoc⟩
      exact .inl ⟨⟨hq, hfind⟩, hdoc⟩
    rintro (⟨⟨hq, -⟩, hdoc⟩ | ⟨before, behind, hfound, -⟩)
    · exact ⟨hq, hdoc⟩
    · rw [hfind] at hfound
      cases hfound

/-! ## The whole text -/

theorem mem_modified {entries : List Entry} :
    path ∈ (splitlines (universal (statusText entries))).filterMap onboardingPathOf ↔
      ∃ e ∈ entries, (Legible e ∧ documentOf e = some path) ∨ ArrowWithin e path := by
  rw [splitlines_statusText, List.filterMap_map, List.mem_filterMap]
  simp only [Function.comp_apply, onboardingPathOf_line]

/-- The recovered paths are the touched documents, and a finding in a touched document is enforced. -/
structure Recovered (entries : List Entry) : Prop where
  exact : ∃ modified, modifiedOnboardingPaths (some (statusText entries)) = some modified ∧
    ∀ path, path ∈ modified ↔ Touches entries path
  enforced : ∀ findings : List QualityFinding, ∀ finding ∈ findings, finding.code = invalidProvenance →
    Touches entries finding.path →
      finding ∈ (demotePreexistingProvenanceDebt findings (some (statusText entries))).1 ∧
      ∀ debt ∈ (demotePreexistingProvenanceDebt findings (some (statusText entries))).2, debt.path ≠ finding.path

theorem isDebt_of_mem (h : finding.path ∈ modified) : isDebt modified finding = false := by
  simp [isDebt, h]

theorem demote_enforced {findings : List QualityFinding} {text : List Char}
    (hm : modifiedOnboardingPaths (some text) = some modified) (hf : finding ∈ findings)
    (hpath : finding.path ∈ modified) :
    finding ∈ (demotePreexistingProvenanceDebt findings (some text)).1 ∧
      ∀ debt ∈ (demotePreexistingProvenanceDebt findings (some text)).2, debt.path ≠ finding.path := by
  rw [demotePreexistingProvenanceDebt, hm]
  constructor
  · exact List.mem_filter.mpr ⟨hf, by rw [isDebt_of_mem hpath]; rfl⟩
  intro debt hdebt heq
  obtain ⟨f, hmem, rfl⟩ := List.mem_map.mp hdebt
  have hin : f.path ∈ modified := by
    have hsame : f.path = finding.path := heq
    rw [hsame]
    exact hpath
  have hisDebt := (List.mem_filter.mp hmem).2
  rw [isDebt_of_mem hin] at hisDebt
  cases hisDebt

/-- The status text gives the touched documents if and only if every one is written legibly, or behind an arrow in a
name, and only touched documents stand behind such arrows. -/
theorem touched_recovered (entries : List Entry) : Recovered entries ↔ AllLegible entries := by
  constructor
  · intro h
    obtain ⟨modified, hm, hexact⟩ := h.exact
    rw [modifiedOnboardingPaths, Option.map_some, Option.some.injEq] at hm
    subst hm
    constructor
    · intro e he path hdoc
      exact mem_modified.mp ((hexact path).mpr ⟨e, he, hdoc⟩)
    · intro e he path harrow
      exact (hexact path).mp (mem_modified.mpr ⟨e, he, .inr harrow⟩)
  intro h
  have hexact : ∀ path, path ∈ (splitlines (universal (statusText entries))).filterMap onboardingPathOf ↔
      Touches entries path := by
    intro path
    rw [mem_modified]
    constructor
    · rintro ⟨e, he, ⟨-, hdoc⟩ | harrow⟩
      · exact ⟨e, he, hdoc⟩
      · exact h.within e he path harrow
    · rintro ⟨e, he, hdoc⟩
      exact h.touched e he path hdoc
  refine ⟨⟨_, rfl, hexact⟩, ?_⟩
  intro findings finding hf _ htouched
  exact demote_enforced rfl hf ((hexact finding.path).mpr htouched)

def spacedName : Name := [111, 110, 98, 111, 97, 114, 100, 105, 110, 103, 47, 97, 32, 98, 46, 109, 100]

def spacedEntry : Entry := { index := .unmodified, worktree := .modified, path := spacedName }

def spacedFinding : QualityFinding :=
  { check := "citations", path := "a b.md".toList, line := 3, severity := "error", code := invalidProvenance
    message := "ambiguous" }

/-- The finding in the document that the task changed is debt. -/
theorem spaced_demoted :
    ¬ Recovered [spacedEntry] ∧ Touches [spacedEntry] spacedFinding.path ∧
      demotePreexistingProvenanceDebt [spacedFinding] (some (statusText [spacedEntry])) =
        ([], [demoted spacedFinding]) := by
  have htouched : Touches [spacedEntry] spacedFinding.path := ⟨spacedEntry, List.mem_singleton_self _, by decide⟩
  have hdebt : demotePreexistingProvenanceDebt [spacedFinding] (some (statusText [spacedEntry])) =
      ([], [demoted spacedFinding]) := by decide +kernel
  refine ⟨?_, htouched, hdebt⟩
  intro h
  have hmem := (h.enforced [spacedFinding] spacedFinding (List.mem_singleton_self _) rfl htouched).1
  rw [hdebt] at hmem
  cases hmem

end AgentsRemember.Citations
