import AgentsRemember.Lib.FrontMatter
import AgentsRemember.Lib.JsonText
import AgentsRemember.Lib.PosixPath

/-!
# Worktree contracts

`worktrees/worktree_contract.py`: a contract is written as a front matter block
of cells and sections, one value to a line and none of them escaped, and read
back by a parser of its own. The vocabularies of the six status cells are types
here, so the write gate has no value of theirs to refuse.
-/

namespace AgentsRemember.Worktree

open Lib Lib.JsonText Lib.FrontMatter

/-! ## Vocabularies -/

inductive WorkflowKind
  | chatTask
  | lightTask
  deriving DecidableEq

inductive MemoryMode
  | internal
  | external
  | disabled
  deriving DecidableEq

inductive HumanReviewStatus
  | pendingReview
  | approved
  deriving DecidableEq

inductive CloseoutStatus
  | notStarted
  | completed
  deriving DecidableEq

inductive IntegrationStatus
  | notStarted
  | completed
  | blocked
  deriving DecidableEq

inductive CleanupStatus
  | pending
  | completed
  | abandoned
  | reopened
  deriving DecidableEq

class Vocabulary (α : Type) where
  members : List α
  token : α → String
  find : ∀ a, members.find? (fun b => token b = token a) = some a
  plain : ∀ a, token a ≠ "" ∧ CellText (token a)

instance : Vocabulary WorkflowKind where
  members := [.chatTask, .lightTask]
  token
    | .chatTask => "chat-task"
    | .lightTask => "light-task"
  find a := by cases a <;> decide
  plain a := by cases a <;> decide

instance : Vocabulary MemoryMode where
  members := [.internal, .external, .disabled]
  token
    | .internal => "internal"
    | .external => "external"
    | .disabled => "disabled"
  find a := by cases a <;> decide
  plain a := by cases a <;> decide

instance : Vocabulary HumanReviewStatus where
  members := [.pendingReview, .approved]
  token
    | .pendingReview => "pending-review"
    | .approved => "approved"
  find a := by cases a <;> decide
  plain a := by cases a <;> decide

instance : Vocabulary CloseoutStatus where
  members := [.notStarted, .completed]
  token
    | .notStarted => "not-started"
    | .completed => "completed"
  find a := by cases a <;> decide
  plain a := by cases a <;> decide

instance : Vocabulary IntegrationStatus where
  members := [.notStarted, .completed, .blocked]
  token
    | .notStarted => "not-started"
    | .completed => "completed"
    | .blocked => "blocked"
  find a := by cases a <;> decide
  plain a := by cases a <;> decide

instance : Vocabulary CleanupStatus where
  members := [.pending, .completed, .abandoned, .reopened]
  token
    | .pending => "pending"
    | .completed => "completed"
    | .abandoned => "abandoned"
    | .reopened => "reopened"
  find a := by cases a <;> decide
  plain a := by cases a <;> decide

/-! ## Contracts -/

structure UnknownCell where
  fieldName : String
  raw : String
  fallback : String

def UnknownCell.text (u : UnknownCell) : String := u.fieldName ++ "=" ++ textRepr u.raw ++ " read as " ++ textRepr u.fallback

abbrev SyncEntry := List (String × Value)

structure WorktreeContract where
  taskId : String
  taskName : String
  repoName : String
  workflowKind : WorkflowKind
  memoryMode : MemoryMode
  coordinationRoot : PosixPath
  taskRoot : PosixPath
  contractPath : PosixPath
  taskArtifact : PosixPath
  worktreeGroup : PosixPath
  codeRepoPath : PosixPath
  codeSourceBranch : String
  codeWorkBranch : String
  codeBaseCommit : String
  codeWorktree : PosixPath
  memoryRepoPath : Option PosixPath
  memorySourceBranch : String
  memoryWorkBranch : String
  memoryBaseCommit : String
  memoryWorktree : Option PosixPath
  ledgerPath : Option PosixPath
  memoryState : String
  humanReviewStatus : HumanReviewStatus
  approvedForCommit : Bool
  commitApprovalNote : String
  closeoutStatus : CloseoutStatus
  codeCommit : String
  memoryContentCommit : String
  ledgerCommit : String
  integrationStatus : IntegrationStatus
  integrationStrategy : String
  integratedCodeCommit : String
  integratedMemoryContentCommit : String
  integratedLedgerCommit : String
  cleanup : CleanupStatus
  kind : String
  leafId : String
  parentTaskName : String
  parentContractPath : Option PosixPath
  lifecycleId : String
  syncLog : List SyncEntry
  unknownCells : List UnknownCell

inductive ContractError
  | noFrontMatter
  | notClosed
  | unsupportedSchema (schema : String)
  | unsupportedVersion (raw : String)
  | emptyPath (field : String)
  | missingFields (names : List String)
  | invalidKind (kind : String)
  | missingLeafId
  | missingExternal (name : String)
  deriving DecidableEq

def contractSchema : String := "ar-series-contract/v1"

def contractSchemaVersion : String := "1.0"

/-- The texts of the refusals, about the file at `path`. -/
def ContractError.message (path : PosixPath) : ContractError → String
  | .noFrontMatter => "worktree contract must start with a front matter block: " ++ path.asPosix
  | .notClosed => "worktree contract front matter is not closed: " ++ path.asPosix
  | .unsupportedSchema schema => "unsupported series contract schema: " ++ schema ++ " (in " ++ path.asPosix ++ ")"
  | .unsupportedVersion raw => "unsupported series contract schemaVersion: " ++ raw ++ " (in " ++ path.asPosix ++
      "); this build implements " ++ contractSchemaVersion
  | .emptyPath field => "required contract path field is empty: " ++ field ++ " (in " ++ path.asPosix ++ ")"
  | .missingFields names => "contract missing required fields: " ++ ", ".intercalate names ++ " (in " ++ path.asPosix ++ ")"
  | .invalidKind kind => "invalid contract kind: " ++ kind ++ " (in " ++ path.asPosix ++ ")"
  | .missingLeafId => "leaf contract missing leaf_id (in " ++ path.asPosix ++ ")"
  | .missingExternal name => "external-memory contract missing " ++ name ++ " (in " ++ path.asPosix ++ ")"

def validKinds : List String := ["series", "leaf"]

def requiredFields (c : WorktreeContract) : List (String × String) :=
  [("task_id", c.taskId), ("task_name", c.taskName), ("repo_name", c.repoName),
    ("workflow_kind", Vocabulary.token c.workflowKind), ("memory_mode", Vocabulary.token c.memoryMode),
    ("code_source_branch", c.codeSourceBranch), ("code_work_branch", c.codeWorkBranch), ("code_base_commit", c.codeBaseCommit)]

def validateContract (c : WorktreeContract) : Except ContractError Unit :=
  let missing := ((requiredFields c).filter fun e => e.2 = "").map Prod.fst
  if missing ≠ [] then .error (.missingFields missing)
  else if c.kind ∉ validKinds then .error (.invalidKind c.kind)
  else if c.kind = "leaf" ∧ c.leafId = "" then .error .missingLeafId
  else if c.memoryMode = .external ∧ c.kind = "leaf" then
    if c.memoryRepoPath = none then .error (.missingExternal "memory_repo_path")
    else if c.memoryWorktree = none then .error (.missingExternal "memory_worktree")
    else if c.ledgerPath = none then .error (.missingExternal "ledger_path")
    else .ok ()
  else .ok ()

/-! ## Writing -/

def cell (k v : String) : List Char := entry k v

def subcell (k v : String) : List Char := ' ' :: ' ' :: entry k v

def textLine (k v : String) : List (List Char) := if v = "" then [] else [subcell k v]

def pathLine (k : String) (p : Option PosixPath) : List (List Char) := p.elim [] fun p => [subcell k p.asPosix]

def memoryLines (c : WorktreeContract) : List (List Char) :=
  ["memory:".toList, subcell "mode" (Vocabulary.token c.memoryMode)] ++ pathLine "repo_path" c.memoryRepoPath ++
    textLine "source_branch" c.memorySourceBranch ++ textLine "work_branch" c.memoryWorkBranch ++
    textLine "base_commit" c.memoryBaseCommit ++ pathLine "worktree" c.memoryWorktree ++ pathLine "ledger" c.ledgerPath ++
    textLine "state" c.memoryState

def logFormat : Format := ⟨true, none, 0, 0⟩

def logText (log : List SyncEntry) : String := String.ofList (dumps logFormat (.arr (log.map .obj)))

def syncLines (c : WorktreeContract) : List (List Char) :=
  if c.syncLog = [] then [] else ["sync:".toList, subcell "log" (logText c.syncLog), []]

def approvedText (c : WorktreeContract) : String := if c.approvedForCommit then "yes" else "no"

def humanReviewLines (c : WorktreeContract) : List (List Char) :=
  ["human_review:".toList, subcell "status" (Vocabulary.token c.humanReviewStatus),
    subcell "approved_for_commit" (approvedText c)] ++ textLine "commit_approval_note" c.commitApprovalNote

def closeoutLines (c : WorktreeContract) : List (List Char) :=
  ["closeout:".toList, subcell "status" (Vocabulary.token c.closeoutStatus)] ++ textLine "code_commit" c.codeCommit ++
    textLine "memory_content_commit" c.memoryContentCommit ++ textLine "ledger_commit" c.ledgerCommit

def integrationLines (c : WorktreeContract) : List (List Char) :=
  ["integration:".toList, subcell "status" (Vocabulary.token c.integrationStatus)] ++ textLine "strategy" c.integrationStrategy ++
    textLine "code_commit" c.integratedCodeCommit ++ textLine "memory_content_commit" c.integratedMemoryContentCommit ++
    textLine "ledger_commit" c.integratedLedgerCommit ++ [subcell "cleanup" (Vocabulary.token c.cleanup)]

def contractBodyLines (c : WorktreeContract) : List (List Char) :=
  ["# Series Contract - ".toList ++ c.taskId.toList, [], "## Wrapped Workflow".toList, [],
    "Artifact: `".toList ++ c.taskArtifact.asPosix.toList ++ ['`'], [], "## Human Review State".toList, [],
    "- Status: ".toList ++ (Vocabulary.token c.humanReviewStatus).toList,
    "- Approved for commit: ".toList ++ (approvedText c).toList] ++
    (if c.commitApprovalNote = "" then [] else ["- Commit approval note: ".toList ++ c.commitApprovalNote.toList]) ++ [[]]

def dashes : List Char := ['-', '-', '-']

def frontMatterLines (c : WorktreeContract) : List (List Char) :=
  [cell "schema" contractSchema, cell "schemaVersion" contractSchemaVersion, cell "kind" c.kind, cell "task_id" c.taskId,
    cell "task_name" c.taskName, cell "repo_name" c.repoName, cell "workflow_kind" (Vocabulary.token c.workflowKind),
    cell "memory_mode" (Vocabulary.token c.memoryMode), [], "coordination:".toList, subcell "root" c.coordinationRoot.asPosix,
    subcell "task_root" c.taskRoot.asPosix, subcell "series_contract_path" c.contractPath.asPosix,
    subcell "task_artifact" c.taskArtifact.asPosix, subcell "worktree_group" c.worktreeGroup.asPosix, subcell "leaf_id" c.leafId] ++
    textLine "parent_task_name" c.parentTaskName ++ pathLine "parent_contract_path" c.parentContractPath ++
    [[], "code:".toList, subcell "repo_path" c.codeRepoPath.asPosix, subcell "source_branch" c.codeSourceBranch,
      subcell "work_branch" c.codeWorkBranch, subcell "base_commit" c.codeBaseCommit, subcell "worktree" c.codeWorktree.asPosix, [],
      "lifecycle:".toList, subcell "id" c.lifecycleId, []] ++
    memoryLines c ++ [[]] ++ syncLines c ++ humanReviewLines c ++ [[]] ++ closeoutLines c ++ [[]] ++ integrationLines c

def contractToText (c : WorktreeContract) : List Char :=
  ['\n'].intercalate (dashes :: frontMatterLines c ++ dashes :: [] :: contractBodyLines c)

/-! ## Reading -/

def extractFrontMatter (text : List Char) : Except ContractError (List Char) :=
  if ['-', '-', '-', '\n'].isPrefixOf text then
    match Lines.findFirst ['\n', '-', '-', '-'] (text.drop 4) with
    | some (front, _) => .ok front
    | none => .error .notClosed
  else .error .noFrontMatter

def scalar (data : Data) (name : String) : String :=
  match data.get? name with
  | some (.text s) => Lines.stripText s
  | _ => ""

def scalarRaw (data : Data) (name : String) : Option String :=
  match data.get? name with
  | some (.text s) => some s
  | _ => none

def sectionOf (data : Data) (name : String) : Dict String String :=
  match data.get? name with
  | some (.section cells) => cells
  | _ => Dict.empty

def cellOf (cells : Dict String String) (name : String) : String := (cells.get? name).getD ""

def orElse (a b : String) : String := if a = "" then b else a

/-- A cell read into its vocabulary, with a record of what it held when that is none of its members. -/
def vocabularyCell {α : Type} [Vocabulary α] (raw fieldName : String) (fallback : α) : α × List UnknownCell :=
  let value := Lines.stripText raw
  if value = "" then (fallback, [])
  else
    match (Vocabulary.members (α := α)).find? fun a => Vocabulary.token a = value with
    | some a => (a, [])
    | none => (fallback, [⟨fieldName, value, Vocabulary.token fallback⟩])

def memoryModeFallback (memory : Dict String String) : MemoryMode :=
  if Lines.stripText (cellOf memory "state") = "disabled" then .disabled
  else if Lines.stripText (cellOf memory "worktree") ≠ "" ∨ Lines.stripText (cellOf memory "ledger") ≠ "" then .external
  else .internal

def digits (cs : List Char) : Option Nat :=
  if cs ≠ [] ∧ cs.all Char.isDigit then some (cs.foldl (fun n c => 10 * n + (c.toNat - 48)) 0) else none

def schemaVersionSupported (value : String) : Bool :=
  let major := value.toList.takeWhile (· ≠ '.')
  let minor := (value.toList.dropWhile (· ≠ '.')).tail
  digits major = some 1 && digits minor ≠ none

def requiredPath (value field : String) : Except ContractError PosixPath :=
  if value = "" then .error (.emptyPath field) else .ok (PosixPath.ofText value)

def optionalPath (value : String) : Option PosixPath := if value = "" then none else some (PosixPath.ofText value)

def isApproved (value : String) : Bool := ["yes", "true", "1"].contains (String.ofList (value.toList.map Char.toLower))

def parseSyncLog (value : String) : List SyncEntry :=
  if value = "" then []
  else
    match loads value.toList with
    | some (.arr entries) => entries.filterMap asObject
    | _ => []

def contractFromData (data : Data) (path : PosixPath) : Except ContractError WorktreeContract :=
  if scalarRaw data "schema" ≠ some contractSchema then .error (.unsupportedSchema ((scalarRaw data "schema").getD ""))
  else if scalar data "schemaVersion" ≠ "" ∧ schemaVersionSupported (scalar data "schemaVersion") = false then
    .error (.unsupportedVersion (scalar data "schemaVersion"))
  else do
    let coordination := sectionOf data "coordination"
    let code := sectionOf data "code"
    let memory := sectionOf data "memory"
    let humanReview := sectionOf data "human_review"
    let closeout := sectionOf data "closeout"
    let integration := sectionOf data "integration"
    let workflowKind := vocabularyCell (scalar data "workflow_kind") "workflow_kind" WorkflowKind.lightTask
    let memoryMode := vocabularyCell (orElse (scalar data "memory_mode") (Lines.stripText (cellOf memory "mode"))) "memory_mode"
      (memoryModeFallback memory)
    let humanReviewStatus := vocabularyCell (Lines.stripText (cellOf humanReview "status")) "human_review status"
      HumanReviewStatus.pendingReview
    let closeoutStatus := vocabularyCell (Lines.stripText (cellOf closeout "status")) "closeout status" CloseoutStatus.notStarted
    let integrationStatus := vocabularyCell (Lines.stripText (cellOf integration "status")) "integration status"
      IntegrationStatus.notStarted
    let cleanup := vocabularyCell
      (orElse (Lines.stripText (cellOf integration "cleanup")) (Lines.stripText (cellOf closeout "cleanup"))) "cleanup"
      CleanupStatus.pending
    let named := ((optionalPath (cellOf coordination "series_contract_path")).or
      (optionalPath (cellOf coordination "enclosure_path"))).or (optionalPath (cellOf coordination "contract_path"))
    let coordinationRoot ← requiredPath (cellOf coordination "root") "coordination.root"
    let taskRoot ← requiredPath (cellOf coordination "task_root") "coordination.task_root"
    let taskArtifact ← requiredPath (cellOf coordination "task_artifact") "coordination.task_artifact"
    let worktreeGroup ← requiredPath (cellOf coordination "worktree_group") "coordination.worktree_group"
    let codeRepoPath ← requiredPath (cellOf code "repo_path") "code.repo_path"
    let codeWorktree ← requiredPath (cellOf code "worktree") "code.worktree"
    .ok {
      kind := orElse (scalar data "kind") "leaf"
      taskId := scalar data "task_id"
      taskName := scalar data "task_name"
      repoName := scalar data "repo_name"
      workflowKind := workflowKind.1
      memoryMode := memoryMode.1
      coordinationRoot := coordinationRoot
      taskRoot := taskRoot
      contractPath := named.getD path
      taskArtifact := taskArtifact
      worktreeGroup := worktreeGroup
      codeRepoPath := codeRepoPath
      codeSourceBranch := cellOf code "source_branch"
      codeWorkBranch := cellOf code "work_branch"
      codeBaseCommit := cellOf code "base_commit"
      codeWorktree := codeWorktree
      memoryRepoPath := optionalPath (cellOf memory "repo_path")
      memorySourceBranch := cellOf memory "source_branch"
      memoryWorkBranch := cellOf memory "work_branch"
      memoryBaseCommit := cellOf memory "base_commit"
      memoryWorktree := optionalPath (cellOf memory "worktree")
      ledgerPath := optionalPath (cellOf memory "ledger")
      memoryState := cellOf memory "state"
      humanReviewStatus := humanReviewStatus.1
      approvedForCommit := isApproved ((humanReview.get? "approved_for_commit").getD "no")
      commitApprovalNote := cellOf humanReview "commit_approval_note"
      closeoutStatus := closeoutStatus.1
      codeCommit := cellOf closeout "code_commit"
      memoryContentCommit := cellOf closeout "memory_content_commit"
      ledgerCommit := cellOf closeout "ledger_commit"
      integrationStatus := integrationStatus.1
      integrationStrategy := cellOf integration "strategy"
      integratedCodeCommit := cellOf integration "code_commit"
      integratedMemoryContentCommit := cellOf integration "memory_content_commit"
      integratedLedgerCommit := cellOf integration "ledger_commit"
      cleanup := cleanup.1
      leafId := cellOf coordination "leaf_id"
      parentTaskName := cellOf coordination "parent_task_name"
      parentContractPath := optionalPath (cellOf coordination "parent_contract_path")
      lifecycleId := cellOf (sectionOf data "lifecycle") "id"
      syncLog := parseSyncLog (cellOf (sectionOf data "sync") "log")
      unknownCells := workflowKind.2 ++ memoryMode.2 ++ humanReviewStatus.2 ++ closeoutStatus.2 ++ integrationStatus.2 ++
        cleanup.2 }

def parseContract (path : PosixPath) (text : List Char) : Except ContractError WorktreeContract := do
  let front ← extractFrontMatter text
  contractFromData (parseLimited front) path

def loadContract (path : PosixPath) (text : List Char) : Except ContractError WorktreeContract := do
  let contract ← parseContract path text
  validateContract contract
  .ok contract

/-- What the task tree makes of a leaf reference. -/
inductive LeafResolution
  | docId (id : String)
  | leafRefError
  | taskError

inductive WriteError
  | taskResolution
  | refused (e : ContractError)

def normalizeContractLeafId (resolveLeafRef : WorktreeContract → LeafResolution) (keepUnresolved : Bool)
    (c : WorktreeContract) : Except WriteError WorktreeContract :=
  if c.kind ≠ "leaf" ∨ c.leafId = "" then .ok c
  else
    match resolveLeafRef c with
    | .leafRefError => .ok c
    | .taskError => if keepUnresolved then .ok c else .error .taskResolution
    | .docId id => if id = c.leafId then .ok c else .ok { c with leafId := id }

/-- `write_contract`: the text it puts into the file. -/
def writeContract (resolveLeafRef : WorktreeContract → LeafResolution) (c : WorktreeContract) : Except WriteError (List Char) := do
  let c ← normalizeContractLeafId resolveLeafRef false c
  match validateContract c with
  | .error e => .error (.refused e)
  | .ok () => .ok (contractToText c)

end AgentsRemember.Worktree
