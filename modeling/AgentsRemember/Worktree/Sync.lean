import AgentsRemember.Lib.Git
import AgentsRemember.MemoryLedger.Format
import AgentsRemember.Worktree.Contract

/-!
# Moving a worktree's base pair

`worktrees/modules/sync.py`: the moved source branches are merged into the code
worktree and the memory worktree, and the contract's base pair follows. Git's
answers to the two merges are a parameter; whatever else git and the file system
are asked succeeds, and nothing else moves a branch meanwhile. Fetching moves no
local branch and is left out.
-/

namespace AgentsRemember.Worktree

open Lib Lib.Git

inductive Place
  | source
  | task
  deriving DecidableEq

instance : Fintype Place := ⟨{.source, .task}, fun p => by cases p <;> simp⟩

/-- `WorktreeArgs`, as far as a sync reads it. -/
structure SyncArgs where
  dryRun : Bool
  memorySyncChoice : Option String

inductive CodeSync
  | alreadyCurrent
  | wouldMerge
  | merged
  | conflicts
  deriving DecidableEq

inductive MemorySync
  | noExternalMemory
  | skippedByChoice
  | alreadyCurrent
  | needsReview
  | wouldFastForward
  | wouldMerge
  | fastForwarded
  | merged
  | conflicts
  deriving DecidableEq

def CodeSync.text : CodeSync → String
  | .alreadyCurrent => "already-current"
  | .wouldMerge => "would-merge"
  | .merged => "merged"
  | .conflicts => "conflicts"

def MemorySync.text : MemorySync → String
  | .noExternalMemory => "no-external-memory"
  | .skippedByChoice => "skipped-by-choice"
  | .alreadyCurrent => "already-current"
  | .needsReview => "needs-review"
  | .wouldFastForward => "would-fast-forward"
  | .wouldMerge => "would-merge"
  | .fastForwarded => "fast-forwarded"
  | .merged => "merged"
  | .conflicts => "conflicts"

structure SyncRecord (C M : Type) where
  at_ : String
  codeBaseFrom : Commit C
  codeBaseTo : Commit C
  memoryBaseFrom : Option (Commit M)
  memoryBaseTo : Option (Commit M)
  code : String
  memory : String

/-- The fields of a `WorktreeContract` that a sync reads or writes, its commit cells as the commits they name. -/
structure SyncContract (C M : Type) where
  memoryMode : MemoryMode
  codeSourceBranch : String
  memorySourceBranch : String
  /-- Whether `memory_repo_path` and `memory_worktree` are there. -/
  memoryRepo : Bool
  memoryWorktree : Bool
  codeBaseCommit : Commit C
  memoryBaseCommit : Option (Commit M)
  syncLog : List (SyncRecord C M)

structure SyncWorld (C M : Type) where
  code : Repo Place C
  memory : Repo Place M
  /-- Whether the code worktree exists. -/
  live : Bool
  contract : SyncContract C M

/-- What git answers to the two merges of a run: refused with no effect, or what the tool makes of them. -/
structure SyncGit (C M : Type) where
  code : Tool C
  memory : Tool M
  codeRefused : Bool
  memoryRefused : Bool

inductive SyncResult
  /-- A source branch that is not there. -/
  | raised
  | noWorktree
  | noLedger
  | ledgerError (e : MemoryLedger.LedgerError)
  | midCycle
  | alreadyCurrent
  | codeConflicts
  | memoryBlocked (code : CodeSync) (memory : MemorySync)
  | wouldSync (code : CodeSync) (memory : MemorySync)
  | synced (code : CodeSync) (memory : MemorySync)

def SyncResult.state : SyncResult → String
  | .alreadyCurrent => "already-current"
  | .wouldSync .. => "would-sync"
  | .synced .. => "synced"
  | _ => "blocked"

def SyncResult.summary : SyncResult → String
  | .raised => ""
  | .noWorktree => "The code worktree does not exist; sync needs a live worktree."
  | .noLedger => "The official memory source branch has no readable memory.md ledger."
  | .ledgerError _ => "The official memory ledger could not be parsed."
  | .midCycle => "The official line is mid-cycle: the official memory ledger does not map the new code tip. Run memory " ++
      "carryover on the official side first, then re-run worktree_sync."
  | .alreadyCurrent => "The recorded base pair already matches the official line."
  | .codeConflicts => "Merging the moved source branch into the code work branch conflicts; resolve manually in the " ++
      "worktree, then re-run worktree_sync."
  | .memoryBlocked _ .needsReview => "The memory work branch has local commits and the official memory moved; choose " ++
      "merge-memory (ledger conflicts abort cleanly) or skip-memory (defer to end-of-task carryover)."
  | .memoryBlocked _ _ => "Merging official memory into the memory work branch conflicts (ledger or onboarding overlap); " ++
      "the merge was aborted. Use memory_sync_choice='skip-memory' to defer to end-of-task carryover."
  | .wouldSync .. => "Preview only; no branches were moved."
  | .synced .. => "The worktree base pair now matches the official line."

variable {C M : Type} [DecidableEq C] [DecidableEq M] (codeName : Commit C → String) (memoryMd : M → Option (List Char))

def SyncContract.external (c : SyncContract C M) : Bool :=
  decide (c.memoryMode = .external) && c.memoryRepo && c.memoryWorktree

def consistentPairBlock (codeTip : Commit C) (memoryTip : Commit M) : Option SyncResult :=
  match memoryMd memoryTip.tree with
  | none => some .noLedger
  | some text =>
    match MemoryLedger.parseLedgerText text with
    | .error e => some (.ledgerError e)
    | .ok ledger => if MemoryLedger.findMapping ledger (codeName codeTip) = none then some .midCycle else none

def stopBeforeSync (c : SyncContract C M) (codeTip : Commit C) (memoryTip : Option (Commit M)) : Option SyncResult :=
  let current := if codeTip = c.codeBaseCommit ∧ (memoryTip = none ∨ memoryTip = c.memoryBaseCommit) then
    some SyncResult.alreadyCurrent else none
  match memoryTip with
  | none => current
  | some tip => (consistentPairBlock codeName memoryMd codeTip tip).or current

variable (G : SyncGit C M) (args : SyncArgs)

def syncCode (w : SyncWorld C M) (codeTip : Commit C) : CodeSync × SyncWorld C M :=
  if w.code.head .task = codeTip then (.alreadyCurrent, w)
  else if args.dryRun then (.wouldMerge, w)
  else
    let (merged, repo) := if G.codeRefused then (false, w.code) else w.code.mergeCommit .task G.code codeTip
    if merged then (.merged, { w with code := repo }) else (.conflicts, { w with code := repo.mergeAbort .task })

inductive MemoryMove
  | fastForward
  | merge
  | needsReview

def memoryBranchMove (worktreeHead tip : Commit M) : MemoryMove :=
  if isAncestor worktreeHead tip then .fastForward
  else if args.memorySyncChoice = some "merge-memory" then .merge
  else .needsReview

def syncMemory (w : SyncWorld C M) (tip : Commit M) : MemorySync × SyncWorld C M :=
  if args.memorySyncChoice = some "skip-memory" then (.skippedByChoice, w)
  else if w.memory.head .task = tip then (.alreadyCurrent, w)
  else
    match memoryBranchMove args (w.memory.head .task) tip with
    | .needsReview => (.needsReview, w)
    | .fastForward =>
      if args.dryRun then (.wouldFastForward, w)
      else
        match if G.memoryRefused then none else w.memory.mergeFastForward .task G.memory tip with
        | some repo => (.fastForwarded, { w with memory := repo })
        | none => (.conflicts, w)
    | .merge =>
      if args.dryRun then (.wouldMerge, w)
      else
        let (merged, repo) := if G.memoryRefused then (false, w.memory) else w.memory.mergeCommit .task G.memory tip
        if merged then (.merged, { w with memory := repo }) else (.conflicts, { w with memory := repo.mergeAbort .task })

def MemorySync.synced (m : MemorySync) : Bool := m ∈ [.fastForwarded, .merged, .alreadyCurrent]

def SyncContract.record (c : SyncContract C M) (now : String) (code : CodeSync) (memory : MemorySync) (codeTip : Commit C)
    (memoryTip : Option (Commit M)) : SyncContract C M :=
  let memoryBase := if memory.synced then memoryTip else c.memoryBaseCommit
  { c with
    codeBaseCommit := codeTip
    memoryBaseCommit := memoryBase
    syncLog := c.syncLog ++ [⟨now, c.codeBaseCommit, codeTip, c.memoryBaseCommit, memoryBase, code.text, memory.text⟩] }

def syncTo (now : String) (w : SyncWorld C M) (codeTip : Commit C) (memoryTip : Option (Commit M)) :
    SyncResult × SyncWorld C M :=
  let (code, w) := syncCode G args w codeTip
  if code = .conflicts then (.codeConflicts, w)
  else
    let (memory, w) := memoryTip.elim (.noExternalMemory, w) fun tip => syncMemory G args w tip
    -- the blocked returns of the memory side come after the code worktree was merged
    if memory = .needsReview ∨ memory = .conflicts then (.memoryBlocked code memory, w)
    else if args.dryRun then (.wouldSync code memory, w)
    else (.synced code memory, { w with contract := w.contract.record now code memory codeTip memoryTip })

def syncResult (now : String) (w : SyncWorld C M) : SyncResult × SyncWorld C M :=
  if !w.live then (.noWorktree, w)
  else
    match w.code.branches w.contract.codeSourceBranch with
    | none => (.raised, w)
    | some codeTip =>
      let memoryTip := w.memory.branches w.contract.memorySourceBranch
      if w.contract.external && memoryTip.isNone then (.raised, w)
      else
        let memoryTip := if w.contract.external then memoryTip else none
        match stopBeforeSync codeName memoryMd w.contract codeTip memoryTip with
        | some stop => (stop, w)
        | none => syncTo G args now w codeTip memoryTip

end AgentsRemember.Worktree
