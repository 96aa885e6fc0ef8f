import AgentsRemember.Citations.SourceText
import AgentsRemember.MemoryLedger.Format

/-!
# Exact-path routing of claims

`citations/claim_change_router.py`, with `resolution.py` and the history reads
of `provenance.py`: before a claim is compared with its verified commit, Git is
asked whether any of its paths changed at all. `World` is what Git and the file
system answer in one run.
-/

namespace AgentsRemember.Citations

open Lib Lib.Lines

structure Completed where
  returncode : Int
  stdout : List Char
  stderr : List Char

structure Repository where
  root : PosixPath
  /-- `git status --porcelain=v1 -z --untracked-files=all --no-renames` -/
  status : Completed
  /-- `git ls-tree -r --name-only -z HEAD` -/
  headTree : Completed
  /-- `git diff-tree --name-status -r -z --no-renames COMMIT HEAD` -/
  diffTree : String → Completed
  /-- `git show COMMIT:PATH` -/
  showFile : String → String → Completed
  /-- `git rev-parse NAME` -/
  revParse : String → Completed
  /-- `git merge-base --is-ancestor COMMIT OF` -/
  isAncestor : String → String → Completed

structure LockedVersion where
  package : String
  version : String
  surface : String

structure World where
  code : Repository
  memory : Repository
  /-- The text of a regular file. -/
  file : PosixPath → Option (List Char)
  pathExists : PosixPath → Bool
  ledger : Except String MemoryLedger.Ledger
  /-- `Histories.dependency_versions`: what the two manifests pin. -/
  dependencyVersions : String → String → String → Option LockedVersion × Option LockedVersion × Option String
  /-- `repr` of a text and of a list of texts. -/
  repr : String → String
  reprList : List String → String

/-! ## Paths -/

def joinPath (root : PosixPath) (path : String) : PosixPath :=
  let right := PosixPath.ofText path
  if right.anchor = .relative then
    ⟨root.anchor, root.parts ++ right.parts, fun p hp => (List.mem_append.mp hp).elim (root.valid p) (right.valid p)⟩
  else right

/-- `_under`: `path.relative_to(root)` raises nothing. -/
def under (path root : PosixPath) : Bool := path.anchor = root.anchor && root.parts.isPrefixOf path.parts

/-- `Trees.resolve`: the code root first. -/
def resolve (w : World) (path : String) : Option PosixPath :=
  if (w.file (joinPath w.code.root path)).isSome then some (joinPath w.code.root path)
  else if (w.file (joinPath w.memory.root path)).isSome then some (joinPath w.memory.root path)
  else none

/-! ## Reading Git -/

def joined (texts : List String) : String := "; ".intercalate texts.eraseDups

def gitError (stderr : List Char) (fallback : String) : String :=
  (((splitlines stderr).map strip).find? (· ≠ [])).elim fallback String.ofList

def nulFields (raw : List Char) : Except String (List (List Char)) :=
  let fields := split (fun c => decide (c = '\x00')) raw
  let fields := if fields.getLast? = some [] then fields.dropLast else fields
  if [] ∈ fields then .error "empty NUL-delimited field" else .ok fields

def statusPaths (repr : String → String) : List (List Char) → Except String (List (List Char))
  | [] => .ok []
  | record :: rest =>
    if record.length < 4 ∨ record[2]? ≠ some ' ' then .error ("malformed porcelain record " ++ repr (String.ofList record))
    else if 'R' ∈ record.take 2 ∨ 'C' ∈ record.take 2 then
      match rest with
      | [] => .error "rename/copy record has no source path"
      | source :: rest => (statusPaths repr rest).map fun paths => record.drop 3 :: source :: paths
    else (statusPaths repr rest).map fun paths => record.drop 3 :: paths

def isRename (status : List Char) : Bool := status.head? = some 'R' || status.head? = some 'C'

def noPath (repr : String → String) (status : List Char) (which : String) : String :=
  "status " ++ repr (String.ofList status) ++ " has no " ++ which

def nameStatusPaths (repr : String → String) : List (List Char) → Except String (List (List Char))
  | [] => .ok []
  | [field] =>
    match findFirst ['\t'] field with
    | some (status, path) => if isRename status then .error (noPath repr status "second path") else .ok [path]
    | none => .error (noPath repr field "path")
  | field :: next :: rest =>
    match findFirst ['\t'] field with
    | some (status, path) =>
      if isRename status then (nameStatusPaths repr rest).map fun paths => path :: next :: paths
      else (nameStatusPaths repr (next :: rest)).map fun paths => path :: paths
    | none =>
      if isRename field then
        match rest with
        | [] => .error (noPath repr field "second path")
        | second :: rest => (nameStatusPaths repr rest).map fun paths => next :: second :: paths
      else (nameStatusPaths repr rest).map fun paths => next :: paths

inductive RepositoryKind
  | code
  | memory

def RepositoryKind.name : RepositoryKind → String
  | .code => "code"
  | .memory => "memory"

def World.repository (w : World) : RepositoryKind → Repository
  | .code => w.code
  | .memory => w.memory

section
variable (w : World) (kind : RepositoryKind)

def workingPaths : Except String (List (List Char)) :=
  let completed := (w.repository kind).status
  if completed.returncode ≠ 0 then .error (gitError completed.stderr (kind.name ++ " Git status failed"))
  else ((nulFields completed.stdout).bind (statusPaths w.repr)).mapError fun e => kind.name ++ " Git status is invalid: " ++ e

/-- No value stands for a `ValueError` that nothing catches. -/
def headPaths : Option (Except String (List (List Char))) :=
  let completed := (w.repository kind).headTree
  if completed.returncode ≠ 0 then some (.error (gitError completed.stderr (kind.name ++ " Git HEAD tree failed")))
  else (nulFields completed.stdout).toOption.map .ok

def historicalPaths (commit : String) : Except String (List (List Char)) :=
  let completed := (w.repository kind).diffTree commit
  if completed.returncode ≠ 0 then
    .error (gitError completed.stderr (kind.name ++ " Git " ++ commit ++ "-to-HEAD tree failed"))
  else ((nulFields completed.stdout).bind (nameStatusPaths w.repr)).mapError fun e =>
    kind.name ++ " historical Git delta is invalid: " ++ e

def route (commit path : String) : Option (Bool × Option String) :=
  match workingPaths w kind with
  | .error e => some (false, some e)
  | .ok working =>
    if path.toList ∈ working then some (false, none)
    else
      match headPaths w kind with
      | none => none
      | some (.error e) => some (false, some e)
      | some (.ok head) =>
        if path.toList ∉ head then some (false, none)
        else
          match historicalPaths w kind commit with
          | .error e => some (false, some e)
          | .ok delta => some (decide (path.toList ∉ delta), none)

structure Read where
  text : Option String
  error : Option String

def commitOf (stamp : String) : Read :=
  let history := w.repository kind
  let resolved := history.revParse (stamp ++ "^\x7bcommit\x7d")
  if resolved.returncode ≠ 0 then
    ⟨none, some (gitError resolved.stderr (kind.name ++ " history stamp " ++ stamp ++ " does not name a commit"))⟩
  else
    let commit := String.ofList (strip resolved.stdout)
    let reachable := history.isAncestor commit "HEAD"
    if reachable.returncode ≠ 0 then
      ⟨none, some (gitError reachable.stderr (kind.name ++ " history stamp " ++ stamp ++ " resolves to " ++ commit ++
        ", but that commit is not reachable from the current " ++ kind.name ++ " history"))⟩
    else ⟨some commit, none⟩

def fileAt (commit path : String) : Read :=
  let completed := (w.repository kind).showFile commit path
  if completed.returncode = 0 then ⟨some (String.ofList completed.stdout), none⟩
  else ⟨none, some (gitError completed.stderr (path ++ " did not exist at " ++ commit))⟩

end

def memoryCommit (w : World) (codeCommit : String) : Read :=
  match w.ledger with
  | .error e => ⟨none, some ("memory ledger is unavailable or invalid: " ++ e)⟩
  | .ok ledger =>
    match MemoryLedger.findMapping ledger codeCommit with
    | none => ⟨none, some ("memory.md has no ledger mapping for code commit " ++ codeCommit)⟩
    | some row => commitOf w .memory row.memoryCommit

/-! ## Claims -/

structure LocalCitation where
  citation : Citation
  repository : RepositoryKind
  target : Option PosixPath

def topLevel (path : String) : String := String.ofList (path.toList.takeWhile fun c => decide (c ≠ '/'))

def classifyCitation (w : World) (citation : Citation) : Option LocalCitation × Option String :=
  match resolve w citation.path with
  | some target => (some ⟨citation, if under target w.code.root then .code else .memory, some target⟩, none)
  | none =>
    let codeOwned := w.pathExists (joinPath w.code.root (topLevel citation.path))
    let memoryOwned := w.pathExists (joinPath w.memory.root (topLevel citation.path))
    if codeOwned && !memoryOwned then (some ⟨citation, .code, none⟩, none)
    else if memoryOwned && !codeOwned then (some ⟨citation, .memory, none⟩, none)
    else if codeOwned && memoryOwned then
      (none, some (citation.path ++ " is absent now and its top-level path exists in both code and " ++
        "memory, so its provenance kind is ambiguous"))
    else (none, none)

structure CitationPartition where
  localSources : List LocalCitation
  dependencies : List Citation
  error : Option String

def partitionCitations (w : World) : List Citation → CitationPartition
  | [] => ⟨[], [], none⟩
  | citation :: rest =>
    match classifyCitation w citation with
    | (_, some e) => ⟨[], [], some e⟩
    | (none, none) =>
      let p := partitionCitations w rest
      { p with dependencies := citation :: p.dependencies }
    | (some source, none) =>
      let p := partitionCitations w rest
      { p with localSources := source :: p.localSources }

inductive RouteStatus
  | provenUnchanged
  | semanticRequired
  | error
  deriving DecidableEq

structure ClaimRoute where
  localSources : List LocalCitation
  dependencies : List Citation
  status : RouteStatus
  error : Option String

def routeSource (w : World) (codeCommit : String) (source : LocalCitation) : Option (Bool × Option String) :=
  match source.repository with
  | .code => route w .code codeCommit source.citation.path
  | .memory =>
    let commit := memoryCommit w codeCommit
    match commit.text with
    | none => some (false, some (match commit.error with
      | some e => if e = "" then "memory history mapping is unavailable" else e
      | none => "memory history mapping is unavailable"))
    | some text => route w .memory text source.citation.path

def routeClaim (w : World) (codeCommit : String) (citations : List Citation) : Option ClaimRoute :=
  let partition := partitionCitations w citations
  match partition.error with
  | some e => some ⟨partition.localSources, partition.dependencies, .error, some e⟩
  | none => do
    let votes ← partition.localSources.mapM (routeSource w codeCommit)
    let errors := votes.filterMap Prod.snd
    if errors ≠ [] then some ⟨partition.localSources, partition.dependencies, .error, some (joined errors)⟩
    else if votes.all Prod.fst then some ⟨partition.localSources, partition.dependencies, .provenUnchanged, none⟩
    else some ⟨partition.localSources, partition.dependencies, .semanticRequired, none⟩

end AgentsRemember.Citations
