import AgentsRemember.Citations.ChangeRouter

/-!
# Reopening claims

`citations/claim_reopen.py`: a claim is compared with its verified commit. Each
anchor must resolve exactly once then and now, to the same structure; what
resolves otherwise is a finding. A claim that the router has proven unchanged is
not compared. `Views` is how an anchor is found in a file and identified.
-/

namespace AgentsRemember.Citations

open Lib Lib.Lines

/-- `FileView.extents` and `StructuralView.fingerprint`, of a path and its lines. -/
structure Views where
  extents : String → List (List Char) → Anchor → List Extent
  fingerprint : String → List (List Char) → Anchor → Extent → String

structure LocalSource where
  citation : Citation
  kind : String
  current : Option (List (List Char))
  historical : Option (List (List Char))
  provenanceLabel : String

structure Candidate where
  source : LocalSource
  extent : Extent
  fingerprint : String

structure Finding where
  path : String
  line : Nat
  severity : String
  code : String
  message : String

def INVALID : String := "citation_provenance_invalid"
def REOPENED : String := "citation_claim_reopened"

def CURATOR_REMEDIATION : String :=
  "Re-read this claim against the current anchored construct, correct or retain its wording, " ++
    "regenerate its range, and only then advance the card's verification stamp. Other claims " ++
    "in the same document are not reopened on this claim's account."

def PROVENANCE_REMEDIATION : String :=
  "Restore a verifiable provenance before stamping the card: a real code commit, a ledger-" ++
    "mapped memory commit, or an exact resolved dependency version. Do not replace missing " ++
    "evidence with a plausible range or a permissive package pin."

/-! ## Sources -/

section
variable (w : World)

def currentLines (target : Option PosixPath) : Option (List (List Char)) :=
  (target.bind w.file).map fun text => splitlines (universal text)

def historicalLines (read : Read) : Option (List (List Char)) := read.text.map fun text => splitlines text.toList

def codeSource (codeCommit : String) (citation : Citation) (target : Option PosixPath) : LocalSource where
  citation := citation
  kind := "code commit"
  current := currentLines w target
  historical := historicalLines (fileAt w .code codeCommit citation.path)
  provenanceLabel := "code commit " ++ codeCommit

def memorySource (codeCommit : String) (citation : Citation) (target : Option PosixPath) : Option LocalSource × Option String :=
  let mapped := memoryCommit w codeCommit
  match mapped.text with
  | none => (none, mapped.error)
  | some commit =>
    let previous := fileAt w .memory commit citation.path
    (some {
      citation := citation
      kind := "memory commit"
      current := currentLines w target
      historical := historicalLines previous
      provenanceLabel := "memory commit " ++ commit }, previous.error)

def sourceOf (codeCommit : String) (citation : Citation) : Option LocalSource × Option String :=
  match classifyCitation w citation with
  | (none, error) => (none, error)
  | (some classified, _) =>
    match classified.repository with
    | .code => (some (codeSource w codeCommit citation classified.target), none)
    | .memory => memorySource w codeCommit citation classified.target

end

/-! ## Changes of local sources -/

section
variable (views : Views)

def candidates (anchor : Anchor) (source : LocalSource) (lines : Option (List (List Char))) : List Candidate :=
  match lines with
  | none => []
  | some lines => (views.extents source.citation.path lines anchor).map fun extent =>
    ⟨source, extent, views.fingerprint source.citation.path lines anchor extent⟩

/-- Where a candidate is; a later one at the same place replaces it. -/
def Candidate.key (c : Candidate) : String × Extent := (c.source.citation.path, c.extent)

def selected (found : List Candidate) : List Candidate := (Dict.ofEntries (found.map fun c => (c.key, c))).values

def selectedCurrent (anchor : Anchor) (sources : List LocalSource) : List Candidate :=
  selected (sources.flatMap fun s => candidates views anchor s s.current)

def selectedHistorical (anchor : Anchor) (sources : List LocalSource) : List Candidate :=
  selected (sources.flatMap fun s => candidates views anchor s s.historical)

structure Changes where
  changed : List String
  surfaced : List String
  invalid : List String

def Changes.none : Changes := ⟨[], [], []⟩

def anchorInCitedRange (candidate : Candidate) (sources : List LocalSource) : Bool :=
  sources.any fun s => s.citation.start ≤ candidate.extent.start && candidate.extent.start ≤ s.citation.stop

def ambiguousBefore (anchor : Anchor) (n : Nat) : String :=
  anchor.written ++ " resolved " ++ toString n ++ " times at verification; exact " ++ "historical resolution must be unique"

def ambiguousNow (anchor : Anchor) (n : Nat) : String :=
  anchor.written ++ " resolves " ++ toString n ++ " times now; no exact candidate is unique"

def notResolved (anchor : Anchor) : String := anchor.written ++ " no longer resolves in its cited current source(s)"

def changeOf (now : Candidate) (sources : List LocalSource) (detail : String) : Changes :=
  if anchorInCitedRange now sources then ⟨[], [detail], []⟩ else ⟨[detail], [], []⟩

def anchorChange (anchor : Anchor) (sources : List LocalSource) (dependencySources : Bool) : Changes :=
  match selectedHistorical views anchor sources, selectedCurrent views anchor sources with
  | [], [] => if dependencySources then .none else ⟨[notResolved anchor], [], []⟩
  | [], [now] =>
    changeOf now sources (anchor.written ++ " did not exist at " ++ (sources.head?.map (·.provenanceLabel)).getD "" ++
      " and resolves in the working tree")
  | [], now => ⟨[], [], [ambiguousNow anchor now.length]⟩
  | [_], [] => ⟨[notResolved anchor], [], []⟩
  | [before], [now] =>
    if before.fingerprint ≠ now.fingerprint then
      changeOf now sources (anchor.written ++ " changed structurally from " ++ before.source.provenanceLabel ++ " to the working tree")
    else .none
  | [_], now => ⟨[], [], [ambiguousNow anchor now.length]⟩
  | before, _ => ⟨[], [], [ambiguousBefore anchor before.length]⟩

def missing (source : LocalSource) : String :=
  match source.historical with
  | none => source.citation.path ++ " did not exist at " ++ source.provenanceLabel ++ " " ++ "and does not exist in the working tree"
  | some _ => source.citation.path ++ " no longer exists in the working tree"

def localChanges (anchors : List Anchor) (sources : List LocalSource) (dependencySources : Bool) : Changes :=
  if sources.any fun s => s.current.isNone then
    ⟨((sources.filter fun s => s.current.isNone).map missing).mergeSort fun a b => decide (a ≤ b), [], []⟩
  else
    let all := anchors.map fun anchor => anchorChange views anchor sources dependencySources
    ⟨all.flatMap (·.changed), all.flatMap (·.surfaced), all.flatMap (·.invalid)⟩

end

/-! ## Dependencies -/

def pythonSuffixes : List (List Char) := [".py", ".pyi"].map String.toList

def npmSuffixes : List (List Char) := [".js", ".jsx", ".mjs", ".cjs", ".ts", ".tsx", ".mts", ".cts"].map String.toList

def ecosystemFromPath (path : String) : Option String :=
  let pure := PosixPath.ofText path
  let suffix := MemoryLedger.lower (suffixOf pure)
  if suffix ∈ pythonSuffixes then some "python"
  else if suffix ∈ npmSuffixes ∨ pure.parts.getLast? = some "package.json".toList then some "npm"
  else none

def packageFromPath (path : String) : String :=
  match split PosixPath.isSlash path.toList with
  | first :: second :: _ => String.ofList (if first.head? = some '@' then first ++ '/' :: second else first)
  | parts => String.ofList (parts.headD [])

def packageLe (a b : String × String) : Bool := decide (a.1 < b.1) || (a.1 = b.1 && decide (a.2 ≤ b.2))

def dependencyChange (w : World) (codeCommit : String) (one : String × String) : List String × List String :=
  let (before, now, error) := w.dependencyVersions one.1 one.2 codeCommit
  match error.filter (· ≠ ""), before, now with
  | none, some before, some now =>
    if before.version ≠ now.version then
      (["dependency " ++ one.1 ++ " " ++ before.version ++ " -> " ++ now.version ++ " (" ++ before.surface ++ " -> " ++
        now.surface ++ ")"], [])
    else ([], [])
  | error, _, _ => ([], [error.getD (one.1 ++ " has no resolved version provenance")])

def dependencyChanges (w : World) (codeCommit : String) (citations : List Citation) : List String × List String :=
  let unknown := citations.filterMap fun c => match ecosystemFromPath c.path with
    | none => some (c.path ++ " does not identify a Python or npm dependency source, so " ++
        packageFromPath c.path ++ " has no resolved-version namespace")
    | some _ => none
  let packages := citations.filterMap fun c => (ecosystemFromPath c.path).map fun e => (packageFromPath c.path, e)
  let all := (packages.eraseDups.mergeSort packageLe).map (dependencyChange w codeCommit)
  (all.flatMap Prod.fst, unknown ++ all.flatMap Prod.snd)

/-! ## Findings -/

variable (w : World) (document : String) (claim : Claim)

def provenanceFinding (detail : String) : Finding where
  path := document
  line := claim.line
  severity := "error"
  code := INVALID
  message := "This claim cannot be compared with its verification provenance: " ++ detail ++ ". " ++
    "Anchors: " ++ w.reprList (claim.anchors.map Anchor.written) ++ ". " ++
    "Sources: " ++ w.reprList (claim.citations.map (·.text)) ++ ". " ++ PROVENANCE_REMEDIATION

def changedFinding (details : List String) : Finding where
  path := document
  line := claim.line
  severity := "error"
  code := REOPENED
  message := "This claim's evidence changed after verification: " ++ "; ".intercalate details ++ ". " ++ CURATOR_REMEDIATION

def surfacedFinding (details : List String) : Finding where
  path := document
  line := claim.line
  severity := "warning"
  code := REOPENED
  message := "This claim's evidence changed after verification, and the citation is current " ++
    "(anchor resolves and some cited range still holds the changed construct's " ++
    "declaration): " ++ "; ".intercalate details ++ ". " ++
    "Curator review confirms the wording still holds; no citation repair is needed."

def mappingPendingForCodeHead (error : String) : Bool :=
  let head := w.code.revParse "HEAD"
  let commit := strip head.stdout
  if (findFirst "no ledger mapping for code commit".toList error.toList).isNone then false
  else if head.returncode ≠ 0 ∨ (findFirst commit error.toList).isNone then false
  else
    match w.ledger with
    | .error _ => false
    | .ok ledger => ledger.rows.any fun row => row.codeCommit.toList ≠ commit &&
        (w.code.isAncestor row.codeCommit (String.ofList commit)).returncode = 0

def routeErrorFinding (error : String) : Option Finding :=
  if mappingPendingForCodeHead w error then none
  else some (provenanceFinding w document claim ("exact-path change routing failed: " ++ error))

variable (views : Views) (codeCommit : String)

def verdict (found : Changes) : Option Finding :=
  if found.invalid ≠ [] then some (provenanceFinding w document claim (joined found.invalid))
  else if found.changed ≠ [] then some (changedFinding document claim found.changed)
  else if found.surfaced ≠ [] then some (surfacedFinding document claim found.surfaced)
  else none

def evaluateRoute (route : ClaimRoute) : Option Finding :=
  if route.status = .error then routeErrorFinding w document claim (route.error.getD "")
  else
    let reads := if route.status = .semanticRequired then route.localSources.map fun s => sourceOf w codeCommit s.citation else []
    let errors := reads.filterMap fun r => r.2.filter (· ≠ "")
    let sources := reads.filterMap fun r => if (r.2.filter (· ≠ "")).isSome then none else r.1
    let found := if sources = [] then .none else localChanges views claim.anchors sources (!route.dependencies.isEmpty)
    let dependency := if route.dependencies = [] then ([], []) else dependencyChanges w codeCommit route.dependencies
    verdict w document claim ⟨found.changed ++ dependency.1, found.surfaced, errors ++ found.invalid ++ dependency.2⟩

def evaluateClaim : Option (Option Finding) :=
  (routeClaim w codeCommit claim.citations).map (evaluateRoute w document claim views codeCommit)

/-- The same evaluation without the shortcut: local citations are always compared. -/
def evaluateStructurally : Option (Option Finding) :=
  (routeClaim w codeCommit claim.citations).map fun route =>
    evaluateRoute w document claim views codeCommit
      (if route.status = .provenUnchanged then { route with status := .semanticRequired } else route)

end AgentsRemember.Citations
