import AgentsRemember.Lib.Program
import AgentsRemember.Worktree.Sync

/-!
# Integrating a task

`worktrees/modules/integrate.py`: a closed-out task's commits are replayed where
its sources moved, and both source branches are fast-forwarded to them, or
neither. Every git command may fail or raise; reports, and writes of the
contract and of files, succeed. The lineage proof and the quality gate are
commands too: they only read.
-/

namespace AgentsRemember.Worktree

open Lib Lib.Git Lib.Program

inductive GitName
  | revParse
  | currentBranch
  | branchExists
  | isAncestor
  | status
  | rebase
  | rebaseAbort
  | checkoutNew
  | checkoutForce
  | add
  | commit
  | mergeFastForward
  | resetHard
  | deleteBranch
  | lineage
  | quality

structure GitCall where
  undo : Bool
  name : GitName

inductive IntegrateError
  | git (name : GitName)
  | refused (text : String)
  | noLedger
  | ledger (e : MemoryLedger.LedgerError)

structure IntegratedCommits (C M : Type) where
  code : Commit C
  memoryContent : Option (Commit M)
  ledger : Option (Commit M)
  deriving DecidableEq

structure ExternalMemory (M : Type) where
  sourceBranch : String
  workBranch : String
  baseCommit : Option (Commit M)

/-- The fields of a `WorktreeContract` that an integration reads or writes, its commit cells as the commits they name. -/
structure IntegrateContract (C M : Type) where
  kind : String
  codeSourceBranch : String
  codeWorkBranch : String
  external : Option (ExternalMemory M)
  closeoutStatus : CloseoutStatus
  approvedForCommit : Bool
  codeCommit : Option (Commit C)
  memoryContentCommit : Option (Commit M)
  ledgerCommit : Option (Commit M)
  integrationStatus : IntegrationStatus
  integrationStrategy : String
  integrated : Option (IntegratedCommits C M)
  cleanup : CleanupStatus

/-- `WorktreeArgs`, as far as an integration reads it, with the verdict of the handover gate. -/
structure IntegrateArgs (C M : Type) where
  dryRun : Bool
  approved : Bool
  strategy : String
  handoverPermitted : Bool
  recoveryCommits : Option (IntegratedCommits C M)

structure IntegrateWorld (C M : Type) where
  code : Repo Place C
  memory : Repo Place M
  contract : IntegrateContract C M
  /-- The commits journaled for recovery. -/
  journal : Option (IntegratedCommits C M)
  /-- `source_merged` of the call. -/
  sourceMerged : Bool

inductive IntegrateResult
  | integrated (recovered : Bool)
  | alreadyIntegrated (recovered : Bool)
  | wouldIntegrate
  | handoverGateBlocked
  | blocked (status : String)

/-- What surrounds an integration: the fates of its commands, what git makes of histories, the names of commits, and
`memory.md` in the files of a memory checkout. -/
structure IntegrateEnv (C M : Type) where
  fate : GitCall → Nat → Fate
  codeTool : Tool C
  memoryTool : Tool M
  codeName : Commit C → String
  memoryName : Commit M → String
  memoryMd : M → Option (List Char)
  withMemoryMd : List Char → M → M

abbrev Integration (C M α : Type) := Program IntegrateError (IntegrateWorld C M) α

variable {C M : Type} [DecidableEq C] [DecidableEq M] (E : IntegrateEnv C M)

/-! ## Commands -/

def runGit (undo : Bool) (name : GitName) (effect : IntegrateWorld C M → Bool × IntegrateWorld C M) : Integration C M Bool :=
  command (E.fate ⟨undo, name⟩) false (.git name) effect

def requireGit (undo : Bool) (name : GitName) (effect : IntegrateWorld C M → Bool × IntegrateWorld C M) :
    Integration C M Unit := do
  if ← runGit E undo name effect then pure () else raise (.git name)

def requireRead {α : Type} (undo : Bool) (name : GitName) (f : IntegrateWorld C M → Option α) : Integration C M α := do
  match ← command (E.fate ⟨undo, name⟩) none (.git name) (fun w => (f w, w)) with
  | some a => pure a
  | none => raise (.git name)

def probe (undo : Bool) (name : GitName) (f : IntegrateWorld C M → Bool) : Integration C M Bool :=
  command (E.fate ⟨undo, name⟩) false (.git name) fun w => (f w, w)

def orStay {ι T : Type} (r : Repo ι T) (after : Option (Repo ι T)) : Bool × Repo ι T :=
  after.elim (false, r) fun r => (true, r)

def onCode (f : Repo Place C → Bool × Repo Place C) (w : IntegrateWorld C M) : Bool × IntegrateWorld C M :=
  ((f w.code).1, { w with code := (f w.code).2 })

def onMemory (f : Repo Place M → Bool × Repo Place M) (w : IntegrateWorld C M) : Bool × IntegrateWorld C M :=
  ((f w.memory).1, { w with memory := (f w.memory).2 })

def codeHead (undo : Bool) (i : Place) : Integration C M (Commit C) :=
  requireRead E undo .revParse fun w => some (w.code.head i)

def memoryHead (undo : Bool) (i : Place) : Integration C M (Commit M) :=
  requireRead E undo .revParse fun w => some (w.memory.head i)

def codeBranch (b : String) : Integration C M (Commit C) := requireRead E false .revParse fun w => w.code.branches b

def memoryBranch (b : String) : Integration C M (Commit M) := requireRead E false .revParse fun w => w.memory.branches b

def isCodeAncestor (a : Commit C) (c : Option (Commit C)) : Integration C M Bool :=
  probe E false .isAncestor fun _ => c.any (isAncestor a)

def isMemoryAncestor (a : Commit M) (c : Option (Commit M)) : Integration C M Bool :=
  probe E false .isAncestor fun _ => c.any (isAncestor a)

def memoryBranchExists (undo : Bool) (b : String) : Integration C M Bool :=
  probe E undo .branchExists fun w => (w.memory.branches b).isSome

def loadLedger (i : Place) : Integration C M MemoryLedger.Ledger := do
  match E.memoryMd (← read fun w => (w.memory.checkout i).files) with
  | none => raise .noLedger
  | some text =>
    match MemoryLedger.parseLedgerText text with
    | .error e => raise (.ledger e)
    | .ok ledger => pure ledger

def writeLedger (ledger : Except MemoryLedger.LedgerError MemoryLedger.Ledger) : Integration C M Unit :=
  match ledger.bind MemoryLedger.ledgerToText with
  | .error e => raise (.ledger e)
  | .ok text => change fun w =>
      { w with memory := w.memory.setFiles .task (E.withMemoryMd text (w.memory.checkout .task).files) }

def commitIfDirty : Integration C M (Commit M) := do
  let dirty ← requireRead E false .status fun w => some (!w.memory.isClean .task)
  if dirty then
    requireGit E false .add fun w => (true, w)
    requireGit E false .commit (onMemory fun r => (true, r.commit .task))
    memoryHead E false .task
  else memoryHead E false .task

/-! ## Refusals -/

def whenever (b : Bool) (m : Integration C M Unit) : Integration C M Unit := if b then m else pure ()

def blocked (status : String) (persist : Bool) : Integration C M String := do
  whenever persist (change fun w => { w with contract := { w.contract with integrationStatus := .blocked } })
  pure status

def require (holds : Bool) (text : String) : Integration C M Unit := if holds then pure () else raise (.refused text)

variable (c : IntegrateContract C M) (args : IntegrateArgs C M)

def validateIntegrateMemoryContract (x : ExternalMemory M) : Integration C M Unit := do
  require (c.memoryContentCommit.isSome && c.ledgerCommit.isSome)
    "external-memory integration requires closeout memory_content_commit and ledger_commit"
  require ((← requireRead E false .currentBranch fun w => some (w.memory.current .source)) = some x.sourceBranch)
    ("memory source repo must have " ++ x.sourceBranch ++ " checked out")
  require ((← requireRead E false .currentBranch fun w => some (w.memory.current .task)) = some x.workBranch)
    ("memory worktree must have " ++ x.workBranch ++ " checked out")
  require (← requireRead E false .status fun w => some (w.memory.isClean .source)) "memory source repo is not clean"
  require (← requireRead E false .status fun w => some (w.memory.isClean .task)) "memory worktree is not clean"
  require (some (← memoryHead E false .task) = c.ledgerCommit) "memory worktree HEAD does not match closeout ledger_commit"

def validateIntegrateContract : Integration C M Unit := do
  require (c.closeoutStatus = .completed) "integration requires closeout.status completed"
  require c.approvedForCommit "integration requires approved closeout"
  require c.codeCommit.isSome "integration requires closeout code_commit"
  require ((← requireRead E false .currentBranch fun w => some (w.code.current .source)) = some c.codeSourceBranch)
    ("code source repo must have " ++ c.codeSourceBranch ++ " checked out")
  require ((← requireRead E false .currentBranch fun w => some (w.code.current .task)) = some c.codeWorkBranch)
    ("code worktree must have " ++ c.codeWorkBranch ++ " checked out")
  require (← requireRead E false .status fun w => some (w.code.isClean .source)) "code source repo is not clean"
  require (← requireRead E false .status fun w => some (w.code.isClean .task)) "code worktree is not clean"
  require (some (← codeHead E false .task) = c.codeCommit) "code worktree HEAD does not match closeout code_commit"
  match c.external with
  | none => pure ()
  | some x => validateIntegrateMemoryContract E c x

/-- `_integration_lineage_block`: whether the lineage refuses. -/
def lineageRefuses : Integration C M Bool := do
  let current ← probe E false .lineage fun _ => true
  pure (!current)

/-! ## The sources -/

structure IntegrationSources (C M : Type) where
  currentCodeSource : Commit C
  currentMemorySource : Option (Commit M)
  codeReplayRequired : Bool
  memoryReplayRequired : Bool

def IntegrationSources.replayRequired (s : IntegrationSources C M) : Bool := s.codeReplayRequired || s.memoryReplayRequired

def integrationReplayRequirements : Integration C M (IntegrationSources C M) := do
  let codeSource ← codeBranch E c.codeSourceBranch
  let codeIn ← isCodeAncestor E codeSource c.codeCommit
  match c.external with
  | none => pure ⟨codeSource, none, !codeIn, false⟩
  | some x =>
    let memorySource ← memoryBranch E x.sourceBranch
    let memoryIn ← isMemoryAncestor E memorySource c.ledgerCommit
    pure ⟨codeSource, some memorySource, !codeIn, !memoryIn⟩

variable (sources : IntegrationSources C M)

def sourcesMoved : Integration C M Bool := do
  let code ← codeBranch E c.codeSourceBranch
  match c.external with
  | none => pure (code ≠ sources.currentCodeSource)
  | some x =>
    let memory ← memoryBranch E x.sourceBranch
    pure (code ≠ sources.currentCodeSource || some memory ≠ sources.currentMemorySource)

def sourceStateBlock : Integration C M (Option String) := do
  if ← lineageRefuses E then some <$> blocked "source-lineage-stale" true
  else if ← sourcesMoved E c sources then some <$> blocked "source-moved-during-quality" true
  else pure none

/-! ## Replaying -/

def replayCodeIfNeeded : Integration C M (Except String (Option (Commit C))) := do
  if ← isCodeAncestor E sources.currentCodeSource c.codeCommit then pure (.ok c.codeCommit)
  else
    let replayed ← runGit E false .rebase (onCode fun r =>
      match r.branches c.codeSourceBranch with
      | none => (false, r)
      | some onto => r.rebase .task E.codeTool onto onto)
    if replayed then (fun x => .ok (some x)) <$> codeHead E false .task
    else .error <$> blocked "blocked-code-conflict" true

def replayedCode : Integration C M (Except String (Option (Commit C))) :=
  if args.strategy = "replay" then replayCodeIfNeeded E c sources else pure (.ok c.codeCommit)

def integratedCodeCommit : Integration C M (Except String (Option (Commit C))) := do
  match ← replayedCode E c args sources with
  | .error stop => pure (.error stop)
  | .ok code =>
    require (← isCodeAncestor E sources.currentCodeSource code)
      "integrated code commit is not a fast-forward from the current code source branch"
    pure (.ok code)

def qualityGate : Integration C M Bool :=
  if c.kind = "leaf" then pure true else probe E false .quality fun _ => true

def integrationBranch (x : ExternalMemory M) : String := x.workBranch ++ "-integration"

def replayLedger (code : Option (Commit C)) : Integration C M (Option (Commit M) × Option (Commit M)) := do
  let content ← memoryHead E false .task
  let ledger ← loadLedger E .task
  writeLedger E (MemoryLedger.prependMapping ledger (code.elim "" E.codeName) (E.memoryName content))
  requireGit E false .add fun w => (true, w)
  let ledgerCommit ← commitIfDirty E
  pure (some content, some ledgerCommit)

def replayMemoryContent (x : ExternalMemory M) (code : Option (Commit C)) :
    Integration C M (Except String (Option (Commit M) × Option (Commit M))) := do
  if ← memoryBranchExists E false (integrationBranch x) then
    .error <$> blocked "blocked-existing-integration-branch" true
  else if !(← runGit E false .checkoutNew (onMemory fun r => orStay r
      (c.memoryContentCommit.bind fun content => r.checkoutNew .task E.memoryTool (integrationBranch x) content))) then
    .error <$> blocked "blocked-memory-replay" true
  else if !(← runGit E false .rebase (onMemory fun r =>
      match r.branches x.sourceBranch, x.baseCommit with
      | some onto, some base => r.rebase .task E.memoryTool onto base
      | _, _ => (false, r))) then
    .error <$> blocked "blocked-memory-conflict" true
  else .ok <$> replayLedger E code

def memoryNeedsNewLedger (memorySource : Commit M) (code : Option (Commit C)) : Integration C M Bool := do
  if args.strategy = "replay" then
    if code ≠ c.codeCommit then pure true else (!·) <$> isMemoryAncestor E memorySource c.ledgerCommit
  else pure false

def replayedMemory (x : ExternalMemory M) (memorySource : Commit M) (code : Option (Commit C)) :
    Integration C M (Except String (Option (Commit M) × Option (Commit M))) := do
  if ← memoryNeedsNewLedger E c args memorySource code then replayMemoryContent E c x code
  else pure (.ok (c.memoryContentCommit, c.ledgerCommit))

def integratedMemoryCommits (code : Option (Commit C)) :
    Integration C M (Except String (Option (Commit M) × Option (Commit M))) := do
  match c.external, sources.currentMemorySource with
  | some x, some memorySource =>
    match ← replayedMemory E c args x memorySource code with
    | .error stop => pure (.error stop)
    | .ok (content, ledger) =>
      require (← isMemoryAncestor E memorySource ledger)
        "integrated memory ledger commit is not a fast-forward from the current memory source branch"
      pure (.ok (content, ledger))
  | _, _ => pure (.ok (c.memoryContentCommit, c.ledgerCommit))

/-! ## Landing -/

def landedLedgerMaps (commits : IntegratedCommits C M) (ledger : MemoryLedger.Ledger) : Bool :=
  match MemoryLedger.findMapping ledger (E.codeName commits.code) with
  | none => false
  | some row => row.memoryCommit = commits.memoryContent.elim "" E.memoryName

def mergeMemory (commits : IntegratedCommits C M) : Integration C M Unit := do
  requireGit E false .mergeFastForward (onMemory fun r =>
    orStay r (commits.ledger.bind fun ledger => r.mergeFastForward .source E.memoryTool ledger))
  require (landedLedgerMaps E commits (← loadLedger E .source))
    "integrated memory ledger does not map landed code commit to landed memory content commit"

def resetCode (i : Place) (x : Commit C) : Integration C M Bool :=
  runGit E true .resetHard (onCode fun r => (true, r.resetHard i x))

def resetMemory (i : Place) (x : Commit M) : Integration C M Bool :=
  runGit E true .resetHard (onMemory fun r => (true, r.resetHard i x))

def mergeIntegratedCommits (commits : IntegratedCommits C M) : Integration C M Unit := do
  let codeBefore ← codeHead E false .source
  require (← isCodeAncestor E codeBefore (some commits.code))
    "integrated code commit is not a fast-forward from the current code branch"
  let merge := requireGit E false .mergeFastForward (onCode fun r => orStay r (r.mergeFastForward .source E.codeTool commits.code))
  match c.external with
  | none => merge
  | some _ =>
    let memoryBefore ← memoryHead E false .source
    require (← isMemoryAncestor E memoryBefore commits.ledger)
      "integrated memory ledger commit is not a fast-forward from the current memory branch"
    merge
    rescue (mergeMemory E commits) fun e => do
      -- best effort: what the resets answer is not read
      let _ ← resetCode E .source codeBefore
      let _ ← resetMemory E .source memoryBefore
      raise e

def integratedResult (commits : IntegratedCommits C M) (recovered : Bool) : Integration C M IntegrateResult := do
  change fun w => { w with contract := { c with
    integrationStrategy := args.strategy
    integrated := some commits
    integrationStatus := .completed
    cleanup := .pending } }
  pure (.integrated recovered)

def land : Integration C M IntegrateResult := do
  match ← integratedCodeCommit E c args sources with
  | .error stop => pure (.blocked stop)
  | .ok none => raise (.refused "integration requires closeout code_commit")
  | .ok (some code) =>
    if !(← qualityGate E c) then .blocked <$> blocked "blocked-quality-gate" true
    else
      match ← sourceStateBlock E c sources with
      | some stop => pure (.blocked stop)
      | none =>
        match ← integratedMemoryCommits E c args sources (some code) with
        | .error stop => pure (.blocked stop)
        | .ok (content, ledger) =>
          match ← sourceStateBlock E c sources with
          | some stop => pure (.blocked stop)
          | none =>
            let commits := ⟨code, content, ledger⟩
            change fun w => { w with journal := some commits }
            mergeIntegratedCommits E c commits
            change fun w => { w with sourceMerged := true }
            integratedResult c args commits false

/-! ## Restoring -/

structure MemoryReplayState (M : Type) where
  branch : Option String
  head : Commit M
  scratchBranch : String
  scratchExisted : Bool

def memoryReplayState : Integration C M (Option (MemoryReplayState M)) := do
  match c.external with
  | none => pure none
  | some x =>
    if args.strategy = "replay" ∧ sources.replayRequired = true then
      let branch ← requireRead E false .currentBranch fun w => some (w.memory.current .task)
      let head ← memoryHead E false .task
      let existed ← memoryBranchExists E false (integrationBranch x)
      pure (some ⟨branch, head, integrationBranch x, existed⟩)
    else pure none

def restoreReplayedCodeWorktree (original : Commit C) : Integration C M Unit := do
  if (← codeHead E true .task) = original then pure ()
  else
    let _ ← runGit E true .rebaseAbort (onCode fun r => orStay r (r.rebaseAbort .task))
    require (← resetCode E .task original) "integration could not restore the task worktree after a reversible replay"

def restoreReplayedMemoryWorktree (original : MemoryReplayState M) : Integration C M Unit := do
  let _ ← runGit E true .rebaseAbort (onMemory fun r => orStay r (r.rebaseAbort .task))
  let current ← requireRead E true .currentBranch fun w => some (w.memory.current .task)
  whenever (current ≠ original.branch) do
    require (← runGit E true .checkoutForce (onMemory fun r => orStay r (original.branch.bind fun b => r.checkoutForce .task b)))
      "integration could not restore the memory task branch after replay"
  require (← resetMemory E .task original.head) "integration could not restore the memory task worktree after replay"
  whenever (!original.scratchExisted) do
    if ← memoryBranchExists E true original.scratchBranch then
      require (← runGit E true .deleteBranch (onMemory fun r => orStay r (r.deleteBranch original.scratchBranch)))
        "integration could not remove the reversible memory replay branch"
    else pure ()

def restore (replayHead : Option (Commit C)) (memoryReplay : Option (MemoryReplayState M)) : Integration C M Unit := do
  let merged ← read IntegrateWorld.sourceMerged
  whenever (!merged) do
    replayHead.elim (pure ()) (restoreReplayedCodeWorktree E)
    memoryReplay.elim (pure ()) (restoreReplayedMemoryWorktree E)

def replayHead : Integration C M (Option (Commit C)) :=
  if args.strategy = "replay" ∧ sources.codeReplayRequired = true then some <$> codeHead E false .task else pure none

def applyIntegration : Integration C M IntegrateResult := do
  let replayHead ← replayHead E args sources
  let memoryReplay ← memoryReplayState E c args sources
  change fun w => { w with sourceMerged := false }
  ensure (land E c args sources) (restore E replayHead memoryReplay)

def recoverySourcesLanded (commits : IntegratedCommits C M) : Integration C M Bool := do
  let codeLanded := (← codeBranch E c.codeSourceBranch) = commits.code
  match c.external with
  | some x =>
    let memoryLanded := some (← memoryBranch E x.sourceBranch) = commits.ledger
    if !codeLanded && !memoryLanded then pure false
    else
      require (codeLanded && memoryLanded) "integration contract-finalization recovery requires manual reconciliation"
      pure true
  | none =>
    if !codeLanded then pure false
    else
      require (commits.memoryContent = none ∧ commits.ledger = none)
        "integration contract-finalization recovery recorded external-memory commits for an internal-memory contract"
      pure true

def proveExternalMemoryRecovery (commits : IntegratedCommits C M) : Integration C M Unit := do
  require (← requireRead E false .status fun w => some (w.memory.isClean .source)) "recovering integration memory source is not clean"
  require (← requireRead E false .status fun w => some (w.memory.isClean .task)) "recovering integration memory worktree is not clean"
  require (some (← memoryHead E false .task) = commits.ledger) "integration contract-finalization recovery requires manual reconciliation"
  require (landedLedgerMaps E commits (← loadLedger E .source)) "integration contract-finalization recovery requires manual reconciliation"
  require (← probe E false .isAncestor fun _ =>
      commits.memoryContent.any fun content => commits.ledger.any (isAncestor content))
    "integration contract-finalization recovery requires manual reconciliation"

def proveIntegrationRecoveryCommits (commits : IntegratedCommits C M) : Integration C M (Option (IntegratedCommits C M)) := do
  if ← recoverySourcesLanded E c commits then
    require (← requireRead E false .status fun w => some (w.code.isClean .source)) "recovering integration code source is not clean"
    require (← requireRead E false .status fun w => some (w.code.isClean .task)) "recovering integration code worktree is not clean"
    require ((← codeHead E false .task) = commits.code) "integration contract-finalization recovery requires manual reconciliation"
    whenever c.external.isSome (proveExternalMemoryRecovery E commits)
    pure (some commits)
  else pure none

def recoverIntegrationFinalization : Integration C M (Option IntegrateResult) := do
  match args.recoveryCommits with
  | none => pure none
  | some commits =>
    match ← proveIntegrationRecoveryCommits E c commits with
    | none => pure none
    | some proven =>
      if c.integrationStatus = .completed then
        require (c.integrated = some commits) "completed integration contract does not match its recorded recovery commits"
        pure (some (.alreadyIntegrated true))
      else some <$> integratedResult c args proven true

/-! ## The whole call -/

def integrateResult : Integration C M IntegrateResult := do
  require (args.approved || args.dryRun) "integration requires --approved after human review"
  let c ← read IntegrateWorld.contract
  match ← recoverIntegrationFinalization E c args with
  | some result => pure result
  | none =>
    if c.integrationStatus = .completed then pure (.alreadyIntegrated false)
    else
      validateIntegrateContract E c
      if ← lineageRefuses E then .blocked <$> blocked "source-lineage-stale" (!args.dryRun)
      else if !args.dryRun && !args.handoverPermitted then pure .handoverGateBlocked
      else
        let sources ← integrationReplayRequirements E c
        if args.strategy = "ff-only" ∧ sources.replayRequired = true then
          .blocked <$> blocked "blocked-non-ff" (!args.dryRun)
        else if args.dryRun then pure .wouldIntegrate
        else applyIntegration E c args sources

end AgentsRemember.Worktree
