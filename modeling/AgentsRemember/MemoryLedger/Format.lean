import AgentsRemember.Lib.JsonText
import AgentsRemember.Lib.Lines

/-!
# The memory ledger

`kernel/memory_ledger.py`: a ledger maps code commits to memory commits, newest
first. Its text is a fenced JSON block and a Markdown table, read back by a
parser of its own.
-/

namespace AgentsRemember.MemoryLedger

open Lib Lib.JsonText Lib.Lines

def ledgerSchema : String := "ar-memory-ledger/v1"

def legacyLedgerSchema : String := "ar-memory-branch-ledger/v1"

structure LedgerRow where
  codeCommit : String
  memoryCommit : String

structure Ledger where
  repoName : String
  baseCodeCommit : String
  baseMemoryCommit : String
  lastVerifiedCodeCommit : String
  lastMemoryContentCommit : String
  sortOrder : String
  rows : List LedgerRow
  schema : String

inductive LedgerError
  | missingFence
  | invalidJson
  | notAnObject
  | missingFields (names : List String)
  | unsupportedSchema (schema : String)
  | notTwoColumns
  | noMappingRow
  | noSeparator
  | missingTable
  | sortOrder
  | noRows
  | firstCodeCommit
  | firstMemoryCommit
  | commitsRequired

def LedgerError.message : LedgerError → String
  | .missingFence => "memory.md is missing a fenced `json ar-memory-ledger` metadata block"
  | .invalidJson => "memory.md ledger metadata is invalid JSON: "
  | .notAnObject => "memory.md ledger metadata must be a JSON object"
  | .missingFields names => "memory.md ledger metadata is missing required fields: " ++ ", ".intercalate names
  | .unsupportedSchema schema => "unsupported memory ledger schema: " ++ schema
  | .notTwoColumns => "memory.md ledger table rows must have exactly two columns"
  | .noMappingRow => "memory.md ledger table must contain at least one mapping row"
  | .noSeparator => "memory.md ledger table header is not followed by a separator row"
  | .missingTable => "memory.md is missing the `Code commit | Memory commit` table"
  | .sortOrder => "memory.md ledger sortOrder must be `newest-first`"
  | .noRows => "memory.md ledger must contain at least one row"
  | .firstCodeCommit => "memory.md first Code commit row must match lastVerifiedCodeCommit"
  | .firstMemoryCommit => "memory.md first Memory commit row must match lastMemoryContentCommit"
  | .commitsRequired => "code_commit and memory_commit are required"

/-! ## The fence -/

def fenceOpen : List Char := "```json".toList

def fenceName : List Char := "ar-memory-ledger".toList

def fenceClose : List Char := "\n```".toList

def fenceBody (rest : List Char) : List Char → Option (List Char × List Char)
  | [] => none
  | c :: ws =>
    match fenceBody rest ws with
    | some r => some r
    | none => if c = '\n' then findFirst fenceClose (ws ++ rest) else none

def fenceAt (cs : List Char) : Option (List Char × List Char) :=
  if fenceOpen.isPrefixOf cs then
    let cs := cs.drop fenceOpen.length
    let named := cs.dropWhile isPythonSpace
    if cs.head?.any isPythonSpace && fenceName.isPrefixOf named then
      let cs := named.drop fenceName.length
      fenceBody (cs.dropWhile isPythonSpace) (cs.takeWhile isPythonSpace)
    else none
  else none

def searchFence : List Char → Option (List Char × List Char)
  | [] => fenceAt []
  | c :: cs => (fenceAt (c :: cs)).or (searchFence cs)

/-! ## The table -/

def isPipe (c : Char) : Bool := c = '|'

def tableCells (line : List Char) : List (List Char) :=
  let stripped := strip line
  if stripped.head? = some '|' ∧ stripped.getLast? = some '|' then
    (split isPipe ((stripped.dropWhile isPipe).rdropWhile isPipe)).map strip
  else []

def isSeparatorCell (cell : List Char) : Bool :=
  let dashes := if cell.head? = some ':' then cell.tail else cell
  let rest := dashes.dropWhile (· = '-')
  decide (3 ≤ (dashes.takeWhile (· = '-')).length) && (rest = [] || rest = [':'])

def isSeparatorRow (line : List Char) : Bool :=
  let cells := tableCells line
  cells ≠ [] && cells.all isSeparatorCell

def ledgerRowsFrom (rows : List LedgerRow) : List (List Char) → Except LedgerError (List LedgerRow)
  | [] => if rows = [] then .error .noMappingRow else .ok rows
  | line :: lines =>
    match tableCells line with
    | [] => if rows = [] then ledgerRowsFrom rows lines else .ok rows
    | [code, memory] => ledgerRowsFrom (rows ++ [⟨String.ofList code, String.ofList memory⟩]) lines
    | _ => .error .notTwoColumns

/-- `str.lower`, as far as the header can tell: no letter beyond ASCII has one of the header's as its lower case. -/
def lower (cs : List Char) : List Char := cs.map Char.toLower

def headerCells : List (List Char) := ["code commit".toList, "memory commit".toList]

def parseLedgerLines : List (List Char) → Except LedgerError (List LedgerRow)
  | [] => .error .missingTable
  | line :: lines =>
    if (tableCells line).map lower = headerCells then
      match lines with
      | [] => .error .noSeparator
      | next :: lines => if isSeparatorRow next then ledgerRowsFrom [] lines else .error .noSeparator
    else parseLedgerLines lines

def parseLedgerRows (text : List Char) : Except LedgerError (List LedgerRow) := parseLedgerLines (splitlines text)

/-! ## The ledger's text -/

def newestFirst : String := "newest-first"

def validateLedger (ledger : Ledger) : Except LedgerError Unit :=
  if ledger.sortOrder ≠ newestFirst then .error .sortOrder
  else
    match ledger.rows with
    | [] => .error .noRows
    | first :: _ =>
      if first.codeCommit ≠ ledger.lastVerifiedCodeCommit then .error .firstCodeCommit
      else if first.memoryCommit ≠ ledger.lastMemoryContentCommit then .error .firstMemoryCommit
      else .ok ()

def metadataGet (metadata : List (String × Value)) (names : List String) : String :=
  ((names.filterMap fun name => (field metadata name).bind asText).find? fun s => !isBlank s.toList).elim "" stripText

def parsedLedger (metadata : List (String × Value)) (rows : List LedgerRow) : Ledger where
  repoName := metadataGet metadata ["repoName", "repo_name"]
  baseCodeCommit := metadataGet metadata ["baseCodeCommit", "base_code_commit"]
  baseMemoryCommit := metadataGet metadata ["baseMemoryCommit", "base_memory_commit"]
  lastVerifiedCodeCommit := metadataGet metadata ["lastVerifiedCodeCommit", "last_verified_code_commit"]
  lastMemoryContentCommit := metadataGet metadata ["lastMemoryContentCommit", "last_memory_content_commit"]
  sortOrder := metadataGet metadata ["sortOrder", "sort_order"]
  rows := rows
  schema := metadataGet metadata ["schema"]

def missingFields (l : Ledger) : List String :=
  let required := [("schema", l.schema), ("repoName", l.repoName), ("baseCodeCommit", l.baseCodeCommit),
    ("baseMemoryCommit", l.baseMemoryCommit), ("lastVerifiedCodeCommit", l.lastVerifiedCodeCommit),
    ("lastMemoryContentCommit", l.lastMemoryContentCommit), ("sortOrder", l.sortOrder)]
  (required.filter fun e => e.2 = "").map Prod.fst

def parseLedgerText (text : List Char) : Except LedgerError Ledger :=
  match searchFence text with
  | none => .error .missingFence
  | some (group, rest) =>
    match loads group with
    | none => .error .invalidJson
    | some v =>
      match asObject v with
      | none => .error .notAnObject
      | some metadata =>
        let header := parsedLedger metadata []
        if missingFields header ≠ [] then .error (.missingFields (missingFields header))
        else if header.schema ≠ ledgerSchema ∧ header.schema ≠ legacyLedgerSchema then .error (.unsupportedSchema header.schema)
        else do
          let rows ← parseLedgerRows rest
          let ledger := parsedLedger metadata rows
          validateLedger ledger
          .ok ledger

def ledgerMetadata (ledger : Ledger) : List (String × Value) :=
  [("schema", text ledgerSchema), ("repoName", text ledger.repoName), ("baseCodeCommit", text ledger.baseCodeCommit),
    ("baseMemoryCommit", text ledger.baseMemoryCommit), ("lastVerifiedCodeCommit", text ledger.lastVerifiedCodeCommit),
    ("lastMemoryContentCommit", text ledger.lastMemoryContentCommit), ("sortOrder", text ledger.sortOrder)]

def metadataFormat : Format := ⟨true, some 2, 0, 1⟩

def rowLine (row : LedgerRow) : List Char :=
  "| ".toList ++ row.codeCommit.toList ++ " | ".toList ++ row.memoryCommit.toList ++ " |".toList

def ledgerLines (ledger : Ledger) : List (List Char) :=
  ["# Memory Ledger".toList, [], "```json ar-memory-ledger".toList, dumps metadataFormat (.obj (ledgerMetadata ledger)),
    "```".toList, [], "Newest entries are always inserted at the top.".toList, [], "| Code commit | Memory commit |".toList,
    "| ----------- | ------------- |".toList] ++ ledger.rows.map rowLine ++ [[]]

def ledgerToText (ledger : Ledger) : Except LedgerError (List Char) := do
  validateLedger ledger
  .ok (['\n'].intercalate (ledgerLines ledger))

def prependMapping (ledger : Ledger) (codeCommit memoryCommit : String) : Except LedgerError Ledger :=
  let codeCommit := stripText codeCommit
  let memoryCommit := stripText memoryCommit
  if codeCommit = "" ∨ memoryCommit = "" then .error .commitsRequired
  else .ok { ledger with
    lastVerifiedCodeCommit := codeCommit
    lastMemoryContentCommit := memoryCommit
    rows := ⟨codeCommit, memoryCommit⟩ :: ledger.rows }

def findMapping (ledger : Ledger) (codeCommit : String) : Option LedgerRow :=
  let wanted := stripText codeCommit
  ledger.rows.find? fun row => row.codeCommit = wanted

def createInitialLedger (repoName codeCommit memoryCommit : String) : Ledger where
  repoName := repoName
  baseCodeCommit := codeCommit
  baseMemoryCommit := memoryCommit
  lastVerifiedCodeCommit := codeCommit
  lastMemoryContentCommit := memoryCommit
  sortOrder := newestFirst
  rows := [⟨codeCommit, memoryCommit⟩]
  schema := ledgerSchema

end AgentsRemember.MemoryLedger
