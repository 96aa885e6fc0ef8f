import AgentsRemember.Worktree.Contract
import AgentsRemember.Lib.JsonTextBreaks

/-!
# A contract's text reads back

The front matter that `contract_to_text` writes is a list of blocks, and the
parser reads these blocks back when their values are plain. What
`contract_from_data` makes of the blocks is the contract itself.
`contract_reads_back` says when a contract that passes the write gate survives.
-/

namespace AgentsRemember.Worktree

open Lib Lib.JsonText Lib.FrontMatter Lib.Lines

/-! ## The cells of a contract -/

def present (fields : List (String × Option String)) : List (String × String) :=
  fields.filterMap fun f => f.2.map fun v => (f.1, v)

def fieldOf (k v : String) : String × Option String := (k, some v)

def textField (k v : String) : String × Option String := (k, if v = "" then none else some v)

def pathField (k : String) (p : Option PosixPath) : String × Option String := (k, p.map PosixPath.asPosix)

section
variable (c : WorktreeContract)

def topCells : List (String × String) :=
  [("schema", contractSchema), ("schemaVersion", contractSchemaVersion), ("kind", c.kind), ("task_id", c.taskId),
    ("task_name", c.taskName), ("repo_name", c.repoName), ("workflow_kind", Vocabulary.token c.workflowKind),
    ("memory_mode", Vocabulary.token c.memoryMode)]

def coordinationFields : List (String × Option String) :=
  [fieldOf "root" c.coordinationRoot.asPosix, fieldOf "task_root" c.taskRoot.asPosix,
    fieldOf "series_contract_path" c.contractPath.asPosix, fieldOf "task_artifact" c.taskArtifact.asPosix,
    fieldOf "worktree_group" c.worktreeGroup.asPosix, fieldOf "leaf_id" c.leafId, textField "parent_task_name" c.parentTaskName,
    pathField "parent_contract_path" c.parentContractPath]

def codeFields : List (String × Option String) :=
  [fieldOf "repo_path" c.codeRepoPath.asPosix, fieldOf "source_branch" c.codeSourceBranch, fieldOf "work_branch" c.codeWorkBranch,
    fieldOf "base_commit" c.codeBaseCommit, fieldOf "worktree" c.codeWorktree.asPosix]

def lifecycleFields : List (String × Option String) := [fieldOf "id" c.lifecycleId]

def memoryFields : List (String × Option String) :=
  [fieldOf "mode" (Vocabulary.token c.memoryMode), pathField "repo_path" c.memoryRepoPath,
    textField "source_branch" c.memorySourceBranch, textField "work_branch" c.memoryWorkBranch,
    textField "base_commit" c.memoryBaseCommit, pathField "worktree" c.memoryWorktree, pathField "ledger" c.ledgerPath,
    textField "state" c.memoryState]

def syncFields : List (String × Option String) := [fieldOf "log" (logText c.syncLog)]

def humanReviewFields : List (String × Option String) :=
  [fieldOf "status" (Vocabulary.token c.humanReviewStatus), fieldOf "approved_for_commit" (approvedText c),
    textField "commit_approval_note" c.commitApprovalNote]

def closeoutFields : List (String × Option String) :=
  [fieldOf "status" (Vocabulary.token c.closeoutStatus), textField "code_commit" c.codeCommit,
    textField "memory_content_commit" c.memoryContentCommit, textField "ledger_commit" c.ledgerCommit]

def integrationFields : List (String × Option String) :=
  [fieldOf "status" (Vocabulary.token c.integrationStatus), textField "strategy" c.integrationStrategy,
    textField "code_commit" c.integratedCodeCommit, textField "memory_content_commit" c.integratedMemoryContentCommit,
    textField "ledger_commit" c.integratedLedgerCommit, fieldOf "cleanup" (Vocabulary.token c.cleanup)]

def sections : List (String × List (String × Option String)) :=
  [("coordination", coordinationFields c), ("code", codeFields c), ("lifecycle", lifecycleFields c), ("memory", memoryFields c)] ++
    (if c.syncLog = [] then [] else [("sync", syncFields c)]) ++
    [("human_review", humanReviewFields c), ("closeout", closeoutFields c), ("integration", integrationFields c)]

def sectionBlock (s : String × List (String × Option String)) : Block := .section s.1 (present s.2)

def contractBlocks : List Block :=
  (topCells c).map (fun e => .cell e.1 e.2) ++ (sections c).flatMap fun s => [.gap, sectionBlock s]

end

/-! ## The text is the blocks -/

theorem lines_present (fields : List (String × Option String)) :
    (present fields).map (fun e => ' ' :: ' ' :: entry e.1 e.2) =
      fields.flatMap fun f => f.2.elim [] fun v => [subcell f.1 v] := by
  induction fields with
  | nil => rfl
  | cons f fields ih =>
    obtain ⟨k, v⟩ := f
    rw [present] at ih
    cases v <;> simp [present, ih, subcell]

attribute [local simp] fieldOf topCells sections Dict.lookupIn

theorem textLine_eq (k v : String) : textLine k v = (textField k v).2.elim [] fun w => [subcell k w] := by
  rw [textLine, textField]
  split <;> rfl

theorem pathLine_eq (k : String) (p : Option PosixPath) : pathLine k p = (pathField k p).2.elim [] fun w => [subcell k w] := by
  cases p <;> rfl

theorem lines_sectionBlock (s : String × List (String × Option String)) :
    (sectionBlock s).lines = (s.1.toList ++ [':']) :: s.2.flatMap fun f => f.2.elim [] fun v => [subcell f.1 v] := by
  rw [sectionBlock, Block.lines, lines_present]

@[simp] theorem textField_fst (k v : String) : (textField k v).1 = k := rfl

@[simp] theorem pathField_fst (k : String) (p : Option PosixPath) : (pathField k p).1 = k := rfl

theorem memoryLines_eq (c : WorktreeContract) : memoryLines c = (sectionBlock ("memory", memoryFields c)).lines := by
  rw [lines_sectionBlock]
  simp [memoryLines, memoryFields, textLine_eq, pathLine_eq]

theorem humanReviewLines_eq (c : WorktreeContract) :
    humanReviewLines c = (sectionBlock ("human_review", humanReviewFields c)).lines := by
  rw [lines_sectionBlock]
  simp [humanReviewLines, humanReviewFields, textLine_eq]

theorem closeoutLines_eq (c : WorktreeContract) : closeoutLines c = (sectionBlock ("closeout", closeoutFields c)).lines := by
  rw [lines_sectionBlock]
  simp [closeoutLines, closeoutFields, textLine_eq]

theorem integrationLines_eq (c : WorktreeContract) :
    integrationLines c = (sectionBlock ("integration", integrationFields c)).lines := by
  rw [lines_sectionBlock]
  simp [integrationLines, integrationFields, textLine_eq]

theorem coordinationLines_eq (c : WorktreeContract) :
    "coordination:".toList :: [subcell "root" c.coordinationRoot.asPosix, subcell "task_root" c.taskRoot.asPosix,
      subcell "series_contract_path" c.contractPath.asPosix, subcell "task_artifact" c.taskArtifact.asPosix,
      subcell "worktree_group" c.worktreeGroup.asPosix, subcell "leaf_id" c.leafId] ++
      textLine "parent_task_name" c.parentTaskName ++ pathLine "parent_contract_path" c.parentContractPath =
        (sectionBlock ("coordination", coordinationFields c)).lines := by
  rw [lines_sectionBlock]
  simp [coordinationFields, textLine_eq, pathLine_eq]

theorem codeLines_eq (c : WorktreeContract) :
    ["code:".toList, subcell "repo_path" c.codeRepoPath.asPosix, subcell "source_branch" c.codeSourceBranch,
      subcell "work_branch" c.codeWorkBranch, subcell "base_commit" c.codeBaseCommit,
      subcell "worktree" c.codeWorktree.asPosix] = (sectionBlock ("code", codeFields c)).lines := by
  rw [lines_sectionBlock]
  simp [codeFields]

theorem lifecycleLines_eq (c : WorktreeContract) :
    ["lifecycle:".toList, subcell "id" c.lifecycleId] = (sectionBlock ("lifecycle", lifecycleFields c)).lines := by
  rw [lines_sectionBlock]
  simp [lifecycleFields]

theorem syncLines_eq (c : WorktreeContract) :
    [] :: syncLines c = (if c.syncLog = [] then [] else [] :: (sectionBlock ("sync", syncFields c)).lines) ++ [[]] := by
  rw [syncLines, lines_sectionBlock]
  split
  · rfl
  · simp [syncFields]

theorem frontMatterLines_eq (c : WorktreeContract) : frontMatterLines c = (contractBlocks c).flatMap Block.lines := by
  have hsplit : frontMatterLines c = (topCells c).map (fun e => cell e.1 e.2) ++
      [[]] ++ (sectionBlock ("coordination", coordinationFields c)).lines ++
      [[]] ++ (sectionBlock ("code", codeFields c)).lines ++ [[]] ++ (sectionBlock ("lifecycle", lifecycleFields c)).lines ++
      [[]] ++ memoryLines c ++ ([] :: syncLines c) ++ humanReviewLines c ++ [[]] ++ closeoutLines c ++ [[]] ++
      integrationLines c := by
    rw [← coordinationLines_eq, ← codeLines_eq, ← lifecycleLines_eq, frontMatterLines, topCells]
    simp only [List.map_cons, List.map_nil, List.append_assoc, List.cons_append, List.nil_append]
  rw [hsplit, syncLines_eq, memoryLines_eq, humanReviewLines_eq, closeoutLines_eq, integrationLines_eq, contractBlocks, sections,
    List.flatMap_append, List.flatMap_map, List.flatMap_assoc]
  split <;> simp [Block.lines, cell, List.map_eq_flatMap]

/-! ## The keys are fixed -/

def topKeys : List String := ["schema", "schemaVersion", "kind", "task_id", "task_name", "repo_name", "workflow_kind", "memory_mode"]

def sectionKeys : List (String × List String) :=
  [("coordination", ["root", "task_root", "series_contract_path", "task_artifact", "worktree_group", "leaf_id", "parent_task_name",
      "parent_contract_path"]),
    ("code", ["repo_path", "source_branch", "work_branch", "base_commit", "worktree"]), ("lifecycle", ["id"]),
    ("memory", ["mode", "repo_path", "source_branch", "work_branch", "base_commit", "worktree", "ledger", "state"]),
    ("sync", ["log"]), ("human_review", ["status", "approved_for_commit", "commit_approval_note"]),
    ("closeout", ["status", "code_commit", "memory_content_commit", "ledger_commit"]),
    ("integration", ["status", "strategy", "code_commit", "memory_content_commit", "ledger_commit", "cleanup"])]

theorem sections_keys (c : WorktreeContract) :
    List.Sublist ((sections c).map fun s => (s.1, s.2.map Prod.fst)) sectionKeys := by
  rw [sections]
  split
  · exact .cons_cons _ (.cons_cons _ (.cons_cons _ (.cons_cons _ (.cons _ (.refl _)))))
  · exact List.Sublist.refl _

theorem keys_present (fields : List (String × Option String)) :
    List.Sublist ((present fields).map Prod.fst) (fields.map Prod.fst) := by
  induction fields with
  | nil => exact List.Sublist.refl _
  | cons f fields ih =>
    obtain ⟨k, v⟩ := f
    rw [present] at ih
    cases v with
    | none => exact ih.trans (List.sublist_cons_self ..)
    | some v => exact ih.cons_cons k

theorem mem_contractBlocks {c : WorktreeContract} {b : Block} : b ∈ contractBlocks c ↔
    (∃ e ∈ topCells c, b = .cell e.1 e.2) ∨ ∃ s ∈ sections c, b = .gap ∨ b = sectionBlock s := by
  simp [contractBlocks, eq_comm, -topCells, -sections]

theorem names_contractBlocks (c : WorktreeContract) :
    ((contractBlocks c).filterMap Block.node).map Prod.fst = topKeys ++ (sections c).map Prod.fst := by
  have htop : (((topCells c).map fun e => Block.cell e.1 e.2).filterMap Block.node).map Prod.fst = topKeys := rfl
  have hsections : ∀ ss : List (String × List (String × Option String)),
      ((ss.flatMap fun s => [.gap, sectionBlock s]).filterMap Block.node).map Prod.fst = ss.map Prod.fst := by
    intro ss
    induction ss with
    | nil => rfl
    | cons s ss ih => exact congrArg (s.1 :: ·) ih
  rw [contractBlocks, List.filterMap_append, List.map_append, htop, hsections]

theorem isKey_topKeys : ∀ k ∈ topKeys, IsKey k := by decide +kernel

theorem isKey_sectionKeys : ∀ e ∈ sectionKeys, IsKey e.1 ∧ e.2.Nodup ∧ ∀ k ∈ e.2, IsKey k := by decide +kernel

theorem nodup_keys : (topKeys ++ sectionKeys.map Prod.fst).Nodup := by decide

theorem mem_sectionKeys {c : WorktreeContract} {s : String × List (String × Option String)} (h : s ∈ sections c) :
    (s.1, s.2.map Prod.fst) ∈ sectionKeys := (sections_keys c).subset (List.mem_map_of_mem h)

theorem wellKeyed (c : WorktreeContract) : WellKeyed (contractBlocks c) where
  keys b hb k hk := by
    rcases mem_contractBlocks.mp hb with ⟨e, he, rfl⟩ | ⟨s, hs, rfl | rfl⟩
    · rw [Block.keys, List.mem_singleton] at hk
      rw [hk]
      exact isKey_topKeys e.1 (List.mem_map_of_mem (f := Prod.fst) he)
    · cases hk
    obtain ⟨hname, -, hkeys⟩ := isKey_sectionKeys _ (mem_sectionKeys hs)
    rcases List.mem_cons.mp hk with rfl | hk
    · exact hname
    · exact hkeys k ((keys_present s.2).subset hk)
  names := by
    rw [names_contractBlocks]
    refine nodup_keys.sublist ((List.Sublist.refl _).append ?_)
    have h := (sections_keys c).map Prod.fst
    rwa [List.map_map] at h
  cells name cells hb := by
    rcases mem_contractBlocks.mp hb with ⟨e, -, he⟩ | ⟨s, hs, he | he⟩
    · cases he
    · cases he
    · obtain ⟨rfl, rfl⟩ := Block.section.inj he
      exact (isKey_sectionKeys _ (mem_sectionKeys hs)).2.1.sublist (keys_present s.2)

/-! ## The blocks are the contract -/

theorem lookupIn_present (k : String) : ∀ {fields : List (String × Option String)}, (fields.map Prod.fst).Nodup →
    Dict.lookupIn k (present fields) = (Dict.lookupIn k fields).join
  | [], _ => rfl
  | (k', v) :: fields, h => by
    rw [List.map_cons, List.nodup_cons] at h
    have ih := lookupIn_present k h.2
    rw [present] at ih
    by_cases hk : k' = k
    · subst hk
      cases v with
      | none =>
        have hnone : Dict.lookupIn k' fields = none := Dict.lookupIn_eq_none.mpr h.1
        simpa [present, hnone] using ih
      | some v => simp [present]
    cases v with
    | none => simpa [present, hk] using ih
    | some v => simpa [present, hk] using ih

theorem getD_textField (k v : String) : (textField k v).2.getD "" = v := by
  rw [textField]
  split
  · rename_i h
    exact h.symm
  · rfl

theorem optionalPath_asPosix (p : PosixPath) : optionalPath p.asPosix = some p := by
  rw [optionalPath, if_neg p.asPosix_ne_empty, PosixPath.ofText_asPosix]

theorem optionalPath_pathField (k : String) (p : Option PosixPath) : optionalPath ((pathField k p).2.getD "") = p := by
  cases p with
  | none => rfl
  | some p => exact optionalPath_asPosix p

theorem requiredPath_asPosix (p : PosixPath) (name : String) : requiredPath p.asPosix name = .ok p := by
  rw [requiredPath, if_neg p.asPosix_ne_empty, PosixPath.ofText_asPosix]

theorem plain_validKinds : ∀ k ∈ validKinds, CellText k ∧ k ≠ "" ∧ k.toList.getLast? ≠ some ':' := by decide

theorem stripText_of_cellText {s : String} (h : CellText s) : stripText s = s := by
  rw [stripText, h.1, String.ofList_toList]

theorem vocabularyCell_token {α : Type} [Vocabulary α] (a : α) (name : String) (fallback : α) :
    vocabularyCell (Vocabulary.token a) name fallback = (a, []) := by
  obtain ⟨hne, hplain⟩ := Vocabulary.plain a
  rw [vocabularyCell, stripText_of_cellText hplain, if_neg hne, Vocabulary.find a]

theorem stripText_token {α : Type} [Vocabulary α] (a : α) : stripText (Vocabulary.token a) = Vocabulary.token a :=
  stripText_of_cellText (Vocabulary.plain a).2

theorem orElse_of_ne {a : String} (h : a ≠ "") (b : String) : orElse a b = a := if_neg h

theorem isApproved_text (c : WorktreeContract) : isApproved (approvedText c) = c.approvedForCommit := by
  rw [approvedText]
  cases c.approvedForCommit <;> decide

section
variable (c : WorktreeContract)

theorem get?_top {k v : String} (h : (k, v) ∈ topCells c) : (written (contractBlocks c)).get? k = some (.text v) :=
  get?_written (wellKeyed c) (mem_contractBlocks.mpr (.inl ⟨(k, v), h, rfl⟩)) rfl

theorem cell_section {name k : String} {fields : List (String × Option String)} (h : (name, fields) ∈ sections c) :
    (sectionOf (written (contractBlocks c)) name).get? k = (Dict.lookupIn k fields).join := by
  have hmem : sectionBlock (name, fields) ∈ contractBlocks c := mem_contractBlocks.mpr (.inr ⟨_, h, .inr rfl⟩)
  have hkeys : (fields.map Prod.fst).Nodup := (isKey_sectionKeys _ (mem_sectionKeys h)).2.1
  rw [sectionOf, get?_written (wellKeyed c) hmem rfl, Dict.get?, Dict.entries_ofEntries (hkeys.sublist (keys_present fields)),
    lookupIn_present k hkeys]

theorem cellOf_section {name : String} {fields : List (String × Option String)} (h : (name, fields) ∈ sections c) (k : String) :
    cellOf (sectionOf (written (contractBlocks c)) name) k = ((Dict.lookupIn k fields).join).getD "" := by
  rw [cellOf, cell_section c h]

theorem scalar_top {k v : String} (h : (k, v) ∈ topCells c) (hv : CellText v) : scalar (written (contractBlocks c)) k = v := by
  rw [scalar, get?_top c h]
  exact stripText_of_cellText hv

theorem filterMap_asObject (log : List SyncEntry) : (log.map Json.obj).filterMap asObject = log := by
  induction log with
  | nil => rfl
  | cons e log ih => exact congrArg (e :: ·) ih

theorem parseSyncLog_logText (log : List SyncEntry) : parseSyncLog (logText log) = log := by
  have hne : logText log ≠ "" := by
    intro h
    have hchars := congrArg String.toList h
    rw [logText, String.toList_ofList] at hchars
    cases log <;> simp [dumps, JsonText.print] at hchars
  rw [parseSyncLog, if_neg hne, logText, String.toList_ofList, loads_dumps]
  exact filterMap_asObject log

theorem syncLog_written :
    parseSyncLog (cellOf (sectionOf (written (contractBlocks c)) "sync") "log") = c.syncLog := by
  by_cases hlog : c.syncLog = []
  · have hnone : (written (contractBlocks c)).get? "sync" = none := by
      rw [Dict.get?_eq_none, written, Dict.mem_keys_ofEntries, names_contractBlocks, sections, if_pos hlog]
      simp [topKeys]
    rw [sectionOf, hnone, hlog]
    rfl
  have hmem : ("sync", syncFields c) ∈ sections c := by simp [hlog]
  rw [cellOf_section c hmem]
  exact parseSyncLog_logText c.syncLog

theorem contractFromData_written (path : PosixPath) (hkind : c.kind ∈ validKinds) (hid : CellText c.taskId)
    (hname : CellText c.taskName) (hrepo : CellText c.repoName) :
    contractFromData (written (contractBlocks c)) path = .ok { c with unknownCells := [] } := by
  have hschema : scalarRaw (written (contractBlocks c)) "schema" = some contractSchema := by
    rw [scalarRaw, get?_top c (by simp : ("schema", contractSchema) ∈ topCells c)]
  have hversion := scalar_top c (by simp : ("schemaVersion", contractSchemaVersion) ∈ topCells c) (by decide)
  have hsupported : ¬(¬contractSchemaVersion = "" ∧ schemaVersionSupported contractSchemaVersion = false) := by decide
  have hkindText := plain_validKinds c.kind hkind
  have hk := scalar_top c (by simp : ("kind", c.kind) ∈ topCells c) hkindText.1
  have h1 := scalar_top c (by simp : ("task_id", c.taskId) ∈ topCells c) hid
  have h2 := scalar_top c (by simp : ("task_name", c.taskName) ∈ topCells c) hname
  have h3 := scalar_top c (by simp : ("repo_name", c.repoName) ∈ topCells c) hrepo
  have h4 := scalar_top c (by simp : ("workflow_kind", Vocabulary.token c.workflowKind) ∈ topCells c)
    (Vocabulary.plain c.workflowKind).2
  have h5 := scalar_top c (by simp : ("memory_mode", Vocabulary.token c.memoryMode) ∈ topCells c)
    (Vocabulary.plain c.memoryMode).2
  have hcoordination := cellOf_section c (by simp : ("coordination", coordinationFields c) ∈ sections c)
  have hcode := cellOf_section c (by simp : ("code", codeFields c) ∈ sections c)
  have hlifecycle := cellOf_section c (by simp : ("lifecycle", lifecycleFields c) ∈ sections c)
  have hmemory := cellOf_section c (by simp : ("memory", memoryFields c) ∈ sections c)
  have hreview := cellOf_section c (by simp : ("human_review", humanReviewFields c) ∈ sections c)
  have hcloseout := cellOf_section c (by simp : ("closeout", closeoutFields c) ∈ sections c)
  have hintegration := cellOf_section c (by simp : ("integration", integrationFields c) ∈ sections c)
  have happroved := cell_section c (k := "approved_for_commit")
    (by simp : ("human_review", humanReviewFields c) ∈ sections c)
  rw [contractFromData, hschema, hversion]
  simp only [hk, h1, h2, h3, h4, h5, hcoordination, hcode, hlifecycle, hmemory, hreview, hcloseout, hintegration, happroved,
    syncLog_written]
  simp [coordinationFields, codeFields, lifecycleFields, memoryFields, humanReviewFields, closeoutFields, integrationFields, requiredPath_asPosix]
  rw [if_neg hsupported]
  simp only [getD_textField, optionalPath_pathField, optionalPath_asPosix, stripText_token, orElse_of_ne (Vocabulary.plain _).1,
    orElse_of_ne hkindText.2.1, vocabularyCell_token, isApproved_text, List.append_nil]
  rfl

end

/-! ## What a contract may hold -/

def pathText (p : Option PosixPath) : String := (p.map PosixPath.asPosix).getD ""

/-- The texts and paths inside sections, in the order of the document; what is not written counts as empty. -/
def freeCells (c : WorktreeContract) : List String :=
  [c.coordinationRoot.asPosix, c.taskRoot.asPosix, c.contractPath.asPosix, c.taskArtifact.asPosix, c.worktreeGroup.asPosix,
    c.leafId, c.parentTaskName, pathText c.parentContractPath, c.codeRepoPath.asPosix, c.codeSourceBranch, c.codeWorkBranch,
    c.codeBaseCommit, c.codeWorktree.asPosix, c.lifecycleId, pathText c.memoryRepoPath, c.memorySourceBranch,
    c.memoryWorkBranch, c.memoryBaseCommit, pathText c.memoryWorktree, pathText c.ledgerPath, c.memoryState,
    c.commitApprovalNote, c.codeCommit, c.memoryContentCommit, c.ledgerCommit, c.integrationStrategy, c.integratedCodeCommit,
    c.integratedMemoryContentCommit, c.integratedLedgerCommit]

/-- No cell holds a line break or white space at an end, and no cell at the margin ends in a colon. -/
structure Storable (c : WorktreeContract) : Prop where
  names : ∀ s ∈ [c.taskId, c.taskName, c.repoName], CellText s ∧ s.toList.getLast? ≠ some ':'
  cells : ∀ s ∈ freeCells c, CellText s

theorem cellText_logText (log : List SyncEntry) : CellText (logText log) := by
  have hbreak : ∀ ch ∈ (logText log).toList, isLineBreak ch = false := by
    intro ch hch
    rw [logText, String.toList_ofList] at hch
    cases hb : isLineBreak ch with
    | false => rfl
    | true =>
      obtain ⟨-, hascii, -⟩ := (mem_dumps_break rfl hb _).mp hch
      cases hascii
  refine ⟨?_, hbreak⟩
  rw [logText, String.toList_ofList]
  cases log with
  | nil => rfl
  | cons e log =>
    rw [List.map_cons, dumps, JsonText.print, List.cons_append, List.cons_append, List.cons_append, List.cons_append]
    exact strip_eq_self rfl rfl _

theorem plain_textField {k s : String} : (∀ v ∈ (textField k s).2, CellText v) ↔ CellText s := by
  rw [textField]
  split
  · rename_i h
    subst h
    exact iff_of_true (by simp) (by decide)
  · simp

theorem plain_pathField {k : String} {p : Option PosixPath} :
    (∀ v ∈ (pathField k p).2, CellText v) ↔ CellText (pathText p) := by
  cases p with
  | none => exact iff_of_true nofun (by decide)
  | some p => simp [pathField, pathText]

theorem values_contractBlocks {c : WorktreeContract} : (∀ b ∈ contractBlocks c, ∀ v ∈ b.values, CellText v) ↔
    (∀ e ∈ topCells c, CellText e.2) ∧ ∀ s ∈ sections c, ∀ f ∈ s.2, ∀ v ∈ f.2, CellText v := by
  constructor
  · intro h
    refine ⟨fun e he => h _ (mem_contractBlocks.mpr (.inl ⟨e, he, rfl⟩)) e.2 (by simp [Block.values]), fun s hs f hf v hv => ?_⟩
    refine h _ (mem_contractBlocks.mpr (.inr ⟨s, hs, .inr rfl⟩)) v (List.mem_map.mpr ⟨(f.1, v), ?_, rfl⟩)
    exact List.mem_filterMap.mpr ⟨f, hf, by rw [Option.mem_def.mp hv]; rfl⟩
  rintro ⟨htop, hsections⟩ b hb v hv
  rcases mem_contractBlocks.mp hb with ⟨e, he, rfl⟩ | ⟨s, hs, rfl | rfl⟩
  · rw [Block.values, List.mem_singleton] at hv
    exact hv ▸ htop e he
  · cases hv
  obtain ⟨e, he, rfl⟩ := List.mem_map.mp hv
  obtain ⟨f, hf, hfe⟩ := List.mem_filterMap.mp he
  obtain ⟨w, hw, rfl⟩ := Option.map_eq_some_iff.mp hfe
  exact hsections s hs f hf w hw

theorem cellText_token {α : Type} [Vocabulary α] (a : α) : CellText (Vocabulary.token a) := (Vocabulary.plain a).2

theorem cellText_approvedText (c : WorktreeContract) : CellText (approvedText c) := by
  rw [approvedText]
  split <;> decide

theorem plain_fieldOf {k s : String} : (∀ v ∈ (fieldOf k s).2, CellText v) ↔ CellText s := by simp

theorem plain_sections (c : WorktreeContract) : (∀ s ∈ sections c, ∀ f ∈ s.2, ∀ v ∈ f.2, CellText v) ↔
    ∀ s ∈ freeCells c, CellText s := by
  have hsync : (∀ s ∈ (if c.syncLog = [] then [] else [("sync", syncFields c)]), ∀ f ∈ s.2, ∀ v ∈ f.2, CellText v) ↔ True := by
    split
    · simp
    · simpa [syncFields] using cellText_logText c.syncLog
  rw [sections, List.forall_mem_append, List.forall_mem_append, hsync, and_true]
  simp only [List.forall_mem_cons, List.not_mem_nil, IsEmpty.forall_iff, implies_true, coordinationFields, codeFields, lifecycleFields, memoryFields,
    humanReviewFields, closeoutFields, integrationFields, plain_fieldOf, plain_textField, plain_pathField, freeCells,
    cellText_token, cellText_approvedText, and_assoc, and_true, true_and]

theorem plain_top {c : WorktreeContract} (hkind : c.kind ∈ validKinds) :
    (∀ e ∈ topCells c, CellText e.2) ↔ ∀ s ∈ [c.taskId, c.taskName, c.repoName], CellText s := by
  have hk : CellText c.kind := (plain_validKinds c.kind hkind).1
  have hschema : CellText contractSchema ∧ CellText contractSchemaVersion := by decide
  simp only [topCells, List.forall_mem_cons, List.not_mem_nil, IsEmpty.forall_iff, implies_true, hk, hschema, cellText_token,
    and_true, true_and]

theorem token_colon {α : Type} [Vocabulary α] (h : ∀ a ∈ Vocabulary.members (α := α), (Vocabulary.token a).toList.getLast? ≠ some ':')
    (a : α) : (Vocabulary.token a).toList.getLast? ≠ some ':' := h a (List.mem_of_find?_eq_some (Vocabulary.find a))

theorem clean_iff {c : WorktreeContract} (hkind : c.kind ∈ validKinds) : Clean (contractBlocks c) ↔ Storable c := by
  constructor
  · intro h
    obtain ⟨htop, hsections⟩ := values_contractBlocks.mp h.values
    have hnames := (plain_top hkind).mp htop
    have hcolon : ∀ e ∈ topCells c, e.2.toList.getLast? ≠ some ':' := fun e he =>
      h.colon e.1 e.2 (mem_contractBlocks.mpr (.inl ⟨e, he, rfl⟩))
    refine ⟨fun s hs => ⟨hnames s hs, ?_⟩, (plain_sections c).mp hsections⟩
    simp only [List.mem_cons, List.not_mem_nil, or_false] at hs
    rcases hs with rfl | rfl | rfl
    · exact hcolon ("task_id", c.taskId) (by simp)
    · exact hcolon ("task_name", c.taskName) (by simp)
    · exact hcolon ("repo_name", c.repoName) (by simp)
  · intro h
    have htop := (plain_top hkind).mpr fun s hs => (h.names s hs).1
    refine ⟨values_contractBlocks.mpr ⟨htop, (plain_sections c).mpr h.cells⟩, fun k v hb => ?_⟩
    have hmem : (k, v) ∈ topCells c := by
      rcases mem_contractBlocks.mp hb with ⟨e, he, heq⟩ | ⟨s, -, heq | heq⟩
      · obtain ⟨rfl, rfl⟩ := Block.cell.inj heq
        exact he
      · cases heq
      · cases heq
    have hnames := fun s hs => (h.names s hs).2
    simp only [List.forall_mem_cons] at hnames
    simp only [topCells, List.mem_cons, Prod.mk.injEq, List.not_mem_nil, or_false] at hmem
    rcases hmem with ⟨-, rfl⟩ | ⟨-, rfl⟩ | ⟨-, rfl⟩ | ⟨-, rfl⟩ | ⟨-, rfl⟩ | ⟨-, rfl⟩ | ⟨-, rfl⟩ | ⟨-, rfl⟩
    · decide
    · decide
    · exact (plain_validKinds c.kind hkind).2.2
    · exact hnames.1
    · exact hnames.2.1
    · exact hnames.2.2.1
    · exact token_colon (by decide) c.workflowKind
    · exact token_colon (by decide) c.memoryMode

/-! ## Writing and loading -/

/-- The text at `path` loads as `c`, from exactly the cells that `c` has. -/
structure ReadsBack (path : PosixPath) (c : WorktreeContract) (text : List Char) : Prop where
  cells : (extractFrontMatter text).map parseLimited = .ok (written (contractBlocks c))
  contract : loadContract path text = .ok { c with unknownCells := [] }

theorem last_frontMatterLines (c : WorktreeContract) : ∃ l ∈ (frontMatterLines c).getLast?, l ≠ [] := by
  refine ⟨subcell "cleanup" (Vocabulary.token c.cleanup), ?_, List.cons_ne_nil _ _⟩
  have hne : integrationLines c ≠ [] := by simp [integrationLines]
  rw [frontMatterLines, List.getLast?_append_of_ne_nil _ hne, integrationLines, List.getLast?_concat]
  rfl

theorem noDash (c : WorktreeContract) : ∀ b ∈ contractBlocks c, ∀ k ∈ b.keys, k.toList.head? ≠ some '-' := by
  have htop : ∀ k ∈ topKeys, k.toList.head? ≠ some '-' := by decide
  have hsections : ∀ e ∈ sectionKeys, ∀ k ∈ e.1 :: e.2, k.toList.head? ≠ some '-' := by decide
  intro b hb k hk
  rcases mem_contractBlocks.mp hb with ⟨e, he, rfl⟩ | ⟨s, hs, rfl | rfl⟩
  · rw [Block.keys, List.mem_singleton] at hk
    exact hk ▸ htop e.1 (List.mem_map_of_mem (f := Prod.fst) he)
  · cases hk
  · refine hsections _ (mem_sectionKeys hs) k ?_
    exact ((keys_present s.2).cons_cons s.1).subset hk

theorem extractFrontMatter_dashes (body : List Char) : extractFrontMatter (['-', '-', '-', '\n'] ++ body) =
    match findFirst ['\n', '-', '-', '-'] body with
    | some (front, _) => .ok front
    | none => .error .notClosed := rfl

theorem extract_contractToText (c : WorktreeContract) : extractFrontMatter (contractToText c) =
    match findFirst ['\n', '-', '-', '-'] (['\n'].intercalate (frontMatterLines c ++ dashes :: [] :: contractBodyLines c)) with
    | some (front, _) => .ok front
    | none => .error .notClosed := by
  have hne : frontMatterLines c ++ dashes :: [] :: contractBodyLines c ≠ [] := by simp
  have htext : contractToText c =
      ['-', '-', '-', '\n'] ++ ['\n'].intercalate (frontMatterLines c ++ dashes :: [] :: contractBodyLines c) := by
    rw [contractToText, List.cons_append, List.intercalate_cons_of_ne_nil hne]
    rfl
  rw [htext, extractFrontMatter_dashes]

theorem extract_of_plain {c : WorktreeContract} (hv : ∀ b ∈ contractBlocks c, ∀ v ∈ b.values, CellText v) :
    extractFrontMatter (contractToText c) = .ok (['\n'].intercalate (frontMatterLines c)) ∧
      splitlines (['\n'].intercalate (frontMatterLines c)) = (contractBlocks c).flatMap Block.lines := by
  have hfront := @front_of_plain ([] :: contractBodyLines c) _ (fun b hb => ⟨(wellKeyed c).keys b hb, hv b hb⟩) (noDash c)
    (by rw [← frontMatterLines_eq]; exact last_frontMatterLines c) (List.cons_ne_nil _ _)
  rw [← frontMatterLines_eq] at hfront ⊢
  refine ⟨?_, hfront.2⟩
  rw [extract_contractToText, dashes, hfront.1]

theorem validate_kind {c : WorktreeContract} (h : validateContract c = .ok ()) : c.kind ∈ validKinds := by
  rw [validateContract] at h
  split at h
  · cases h
  split at h
  · cases h
  · rename_i hkind
    exact not_not.mp hkind

theorem parseContract_of_extract (path : PosixPath) {text front : List Char} (h : extractFrontMatter text = .ok front) :
    parseContract path text = contractFromData (parseLimited front) path := by
  rw [parseContract, h]
  rfl

theorem loadContract_of_parse {path : PosixPath} {text : List Char} {c : WorktreeContract} (h : parseContract path text = .ok c)
    (hv : validateContract c = .ok ()) : loadContract path text = .ok c := by
  rw [loadContract, h]
  show (do validateContract c; Except.ok c) = _
  rw [hv]
  rfl

theorem readsBack_iff {c : WorktreeContract} (h : validateContract c = .ok ()) (path : PosixPath) :
    ReadsBack path c (contractToText c) ↔ Storable c := by
  rw [← clean_iff (validate_kind h)]
  constructor
  · rintro ⟨hcells, -⟩
    cases hfront : extractFrontMatter (contractToText c) with
    | error e =>
      rw [hfront] at hcells
      cases hcells
    | ok front =>
      rw [hfront] at hcells
      refine (parse_eq_written (wellKeyed c) fun hv => ?_).mp (Except.ok.inj hcells)
      obtain ⟨hextract, hlines⟩ := extract_of_plain hv
      rw [Except.ok.inj (hfront.symm.trans hextract), hlines]
  intro hclean
  obtain ⟨hextract, hlines⟩ := extract_of_plain hclean.values
  have hparse := (parse_eq_written (wellKeyed c) fun _ => hlines).mpr hclean
  have hstore := (clean_iff (validate_kind h)).mp hclean
  have hnames := fun s hs => (hstore.names s hs).1
  have hdata := contractFromData_written c path (validate_kind h) (hnames _ (by simp)) (hnames _ (by simp)) (hnames _ (by simp))
  have hcells : (extractFrontMatter (contractToText c)).map parseLimited = .ok (written (contractBlocks c)) := by
    rw [hextract]
    exact congrArg Except.ok hparse
  refine ⟨hcells, ?_⟩
  rw [← hparse] at hdata
  exact loadContract_of_parse ((parseContract_of_extract path hextract).trans hdata) h

theorem normalize_leafId {resolve : WorktreeContract → LeafResolution} {keep : Bool} {c c' : WorktreeContract}
    (h : normalizeContractLeafId resolve keep c = .ok c') : c' = { c with leafId := c'.leafId } := by
  rw [normalizeContractLeafId] at h
  split at h
  · rw [← Except.ok.inj h]
  split at h
  · rw [← Except.ok.inj h]
  · split at h
    · rw [← Except.ok.inj h]
    · cases h
  split at h
  · rw [← Except.ok.inj h]
  · rw [← Except.ok.inj h]

/-- A contract that the write gate accepts is read back, but for its leaf id, exactly when it is storable. -/
theorem contract_reads_back {resolve : WorktreeContract → LeafResolution} {c : WorktreeContract} {text : List Char}
    (h : writeContract resolve c = .ok text) (path : PosixPath) :
    ∃ id, normalizeContractLeafId resolve false c = .ok { c with leafId := id } ∧
      (ReadsBack path { c with leafId := id } text ↔ Storable { c with leafId := id }) := by
  rw [writeContract] at h
  cases hn : normalizeContractLeafId resolve false c with
  | error e =>
    rw [hn] at h
    cases h
  | ok c' =>
    rw [hn] at h
    cases hv : validateContract c' with
    | error e =>
      simp only [bind, Except.bind, hv] at h
      cases h
    | ok u =>
      simp only [bind, Except.bind, hv] at h
      have hid := normalize_leafId hn
      refine ⟨c'.leafId, hid ▸ rfl, ?_⟩
      rw [← hid, ← Except.ok.inj h]
      exact readsBack_iff hv path

/-- A leaf contract for a task of that name, as the defaults make it for a repository without a memory repository. -/
def leafContract (taskName : String) : WorktreeContract where
  taskId := "FIX"
  taskName := taskName
  repoName := "device"
  workflowKind := .lightTask
  memoryMode := .internal
  coordinationRoot := PosixPath.ofText "/ar"
  taskRoot := PosixPath.ofText "/ar/fix"
  contractPath := PosixPath.ofText "/ar/fix/series-contract.md"
  taskArtifact := PosixPath.ofText "/ar/fix/task.md"
  worktreeGroup := PosixPath.ofText "/ar/fix-ar"
  codeRepoPath := PosixPath.ofText "/code"
  codeSourceBranch := "dev"
  codeWorkBranch := "feature/fix"
  codeBaseCommit := "abc123"
  codeWorktree := PosixPath.ofText "/ar/fix-ar/fix"
  memoryRepoPath := none
  memorySourceBranch := ""
  memoryWorkBranch := ""
  memoryBaseCommit := ""
  memoryWorktree := none
  ledgerPath := none
  memoryState := ""
  humanReviewStatus := .pendingReview
  approvedForCommit := false
  commitApprovalNote := ""
  closeoutStatus := .notStarted
  codeCommit := ""
  memoryContentCommit := ""
  ledgerCommit := ""
  integrationStatus := .notStarted
  integrationStrategy := ""
  integratedCodeCommit := ""
  integratedMemoryContentCommit := ""
  integratedLedgerCommit := ""
  cleanup := .pending
  kind := "leaf"
  leafId := "fix"
  parentTaskName := ""
  parentContractPath := some (PosixPath.ofText "/ar/series-contract.md")
  lifecycleId := ""
  syncLog := []
  unknownCells := []

theorem contract_reads_back_leaf : ∃ id,
    normalizeContractLeafId (fun _ => .leafRefError) false (leafContract "Fix it") =
        .ok { leafContract "Fix it" with leafId := id } ∧
      (ReadsBack (leafContract "").contractPath { leafContract "Fix it" with leafId := id }
        (contractToText (leafContract "Fix it")) ↔ Storable { leafContract "Fix it" with leafId := id }) :=
  contract_reads_back (show writeContract (fun _ => .leafRefError) (leafContract "Fix it") =
    .ok (contractToText (leafContract "Fix it")) from rfl) (leafContract "").contractPath

/-- The refusal of a text, if it is refused. -/
def refusal (path : PosixPath) (text : List Char) : Option ContractError :=
  match loadContract path text with
  | .ok _ => none
  | .error e => some e

/-- A task name that ends in a colon passes the gate, and its contract is refused when it is loaded. -/
theorem contract_colon_refused :
    writeContract (fun _ => .leafRefError) (leafContract "Fix it:") =
        .ok (contractToText (leafContract "Fix it:")) ∧
      refusal (leafContract "").contractPath (contractToText (leafContract "Fix it:")) =
        some (.missingFields ["task_name"]) ∧
      ¬ ReadsBack (leafContract "").contractPath (leafContract "Fix it:")
        (contractToText (leafContract "Fix it:")) := by
  have hrefused : refusal (leafContract "").contractPath (contractToText (leafContract "Fix it:")) =
      some (.missingFields ["task_name"]) := by decide +kernel
  refine ⟨rfl, hrefused, fun h => ?_⟩
  rw [refusal, h.contract] at hrefused
  cases hrefused

end AgentsRemember.Worktree
