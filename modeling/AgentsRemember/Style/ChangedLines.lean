import AgentsRemember.Citations.ChangeRouter
import AgentsRemember.Lib.LineEdits

/-!
# Changed lines

`changed_lines.py`: the lines of each file that differ from `HEAD`, read off the
text of `git diff --unified=0`, and every line of a file that git has never
seen.
-/

namespace AgentsRemember.Changed

open Lib Lines
open Citations (joinPath)

/-- What git answers about the scope; `none` where it fails. -/
structure Git where
  toplevel : Option (List Char)
  head : Bool
  diff : Option (List Char)
  others : Option (List Char)

abbrev Numbers := Dict PosixPath (List Nat)

structure ChangedLines where
  versioned : Bool
  lines : Numbers

def ChangedLines.covers (c : ChangedLines) (path : PosixPath) (line : Nat) : Bool :=
  if c.versioned then decide (line ∈ (c.lines.get? path).getD []) else true

def repositoryRoot (git : Git) : Option PosixPath :=
  match git.toplevel with
  | none => none
  | some text =>
    let toplevel := strip (universal text)
    if toplevel = [] ∨ git.head = false then none else some (PosixPath.ofText (String.ofList toplevel))

/-! ## Marks and headers -/

variable (digit : Char → Option Nat)

def number (cs : List Char) : Option (Nat × List Char) :=
  let digits := cs.takeWhile fun c => (digit c).isSome
  if digits = [] then none
  else some ((digits.filterMap digit).foldl (fun n d => 10 * n + d) 0, cs.dropWhile fun c => (digit c).isSome)

def numbers (cs : List Char) : Option (Nat × Option Nat × List Char) :=
  match number digit cs with
  | none => none
  | some (start, ',' :: rest) =>
    match number digit rest with
    | some (count, rest) => some (start, some count, rest)
    | none => some (start, none, ',' :: rest)
  | some (start, rest) => some (start, none, rest)

def hunkMark (line : List Char) : Option (Nat × Nat) := do
  let old ← line.dropPrefix? "@@ -".toList
  let (_, _, rest) ← numbers digit old
  let new ← rest.dropPrefix? " +".toList
  let (start, count, rest) ← numbers digit new
  let _ ← rest.dropPrefix? " @@".toList
  return (start, count.getD 1)

def isHeader (line : List Char) : Bool := "+++ ".toList.isPrefixOf line

/-- The new side of a header, or `none` for a deletion. -/
def diffTarget (repository : PosixPath) (header : List Char) : Option PosixPath :=
  let target := strip (header.drop "+++ ".toList.length)
  if target = "/dev/null".toList then none
  else some (joinPath repository (String.ofList ((target.dropPrefix? "b/".toList).getD target)))

/-! ## Collecting -/

def addNumbers (lines : Numbers) (path : PosixPath) (numbers : List Nat) : Numbers :=
  lines.set path ((lines.get? path).getD [] ++ numbers)

def collectLine (repository : PosixPath) (s : Option PosixPath × Numbers) (line : List Char) : Option PosixPath × Numbers :=
  if isHeader line then (diffTarget repository line, s.2)
  else
    match hunkMark digit line, s.1 with
    | some (start, count), some current => (some current, addNumbers s.2 current (List.range' start count))
    | _, _ => s

def collectDiffLines (repository : PosixPath) (stdout : Option (List Char)) (lines : Numbers) : Numbers :=
  match stdout with
  | none => lines
  | some text => ((readLines text).foldl (collectLine digit repository) (none, lines)).2

def collectUntracked (repository : PosixPath) (file : PosixPath → Option (List Char)) (lines : Numbers)
    (relative : List Char) : Numbers :=
  let path := joinPath repository (String.ofList (strip relative))
  match file path with
  | none => lines
  | some text => addNumbers lines path (List.range' 1 (readLines text).length)

def collectUntrackedLines (repository : PosixPath) (file : PosixPath → Option (List Char)) (stdout : Option (List Char))
    (lines : Numbers) : Numbers :=
  match stdout with
  | none => lines
  | some text => (readLines text).foldl (collectUntracked repository file) lines

def changedLines (git : Git) (file : PosixPath → Option (List Char)) : ChangedLines :=
  match repositoryRoot git with
  | none => ⟨false, Dict.empty⟩
  | some repository =>
    ⟨true, collectUntrackedLines repository file git.others (collectDiffLines digit repository git.diff Dict.empty)⟩

end AgentsRemember.Changed
