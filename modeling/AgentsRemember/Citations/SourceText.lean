import AgentsRemember.Lib.Dict
import AgentsRemember.Lib.PosixPath
import AgentsRemember.Lib.Utf8
import AgentsRemember.Lib.Words

/-!
# Claims and the texts they cite

`citations/model.py` and `extents.py`: a claim of a memory document names anchors
and the ranges of files that should hold them.
-/

namespace AgentsRemember.Citations

inductive AnchorKind
  | symbol
  | heading
  | quote
  deriving DecidableEq

structure Anchor where
  kind : AnchorKind
  text : String
  deriving DecidableEq

def escaped : List Char → List Char
  | [] => []
  | c :: cs => if c = '\\' ∨ c = '"' then '\\' :: c :: escaped cs else c :: escaped cs

/-- How an anchor is spelled in a document. -/
def Anchor.written (anchor : Anchor) : String :=
  match anchor.kind with
  | .quote => "\"" ++ String.ofList (escaped anchor.text.toList) ++ "\""
  | _ => "`" ++ anchor.text ++ "`"

structure Citation where
  text : String
  path : String
  start : Nat
  stop : Nat

structure Claim where
  line : Nat
  anchors : List Anchor
  citations : List Citation
  malformed : List String
  uncheckedSpans : Nat

inductive ExtentKind
  | definition
  | occurrence
  | section
  | quoted
  | call
  deriving DecidableEq

structure Extent where
  start : Nat
  stop : Nat
  kind : ExtentKind
  deriving DecidableEq

/-! ## Sources

`citations/extents.py` and the matching rules of `model.py`: the words of a
file with their places, and where a quote stands among them.
-/

open Lib Lib.Lines Lib.Tokens Lib.Words

abbrev FileLines := List (List Char)

def suffixOf (path : PosixPath) : List Char :=
  let name := path.parts.getLast?.getD []
  let stem := (name.rdropWhile fun c => decide (c ≠ '.')).dropLast
  if stem = [] ∨ name.getLast? = some '.' then [] else name.drop stem.length

def commentRest (line : List Char) : Option (List Char) :=
  match line.dropWhile isPythonSpace with
  | '/' :: '/' :: c :: rest => some (if isPythonSpace c then rest else c :: rest)
  | ['/', '/'] => some []
  | _ => none

structure Row where
  line : Nat
  byte : Nat
  text : List Char

structure SourceWord where
  line : Nat
  byte : Nat
  text : List Char

structure WordMark where
  collapsedStart : Nat
  collapsedEnd : Nat
  line : Nat
  sourceByteStart : Nat
  text : List Char

structure CollapsedText where
  text : List Char
  marks : List WordMark

def rowWords (row : Row) : List SourceWord :=
  (tokens isWordChar isWordChar 0 0 row.text).map fun w => ⟨row.line, row.byte + (Utf8.encode (row.text.take w.1)).length, w.2⟩

def marksFrom : Nat → List SourceWord → List WordMark
  | _, [] => []
  | at_, w :: ws => ⟨at_, at_ + w.text.length, w.line, w.byte, w.text⟩ :: marksFrom (at_ + w.text.length + 1) ws

def collapse (ws : List SourceWord) : CollapsedText := ⟨joinWords (ws.map (·.text)), marksFrom 0 ws⟩

def lineStart (lines : FileLines) (index : Nat) : Nat := ((lines.take index).map fun l => (Utf8.encode l).length + 1).sum

def lineRow (lines : FileLines) (l : List Char × Nat) : Row := ⟨l.2 + 1, lineStart lines l.2, l.1⟩

def commentRow (lines : FileLines) (l : List Char × Nat) : Option Row :=
  (commentRest l.1).map fun rest =>
    ⟨l.2 + 1, lineStart lines l.2 + (Utf8.encode (l.1.take (l.1.length - rest.length))).length, rest⟩

def collapsed (lines : FileLines) : CollapsedText := collapse ((lines.zipIdx.map (lineRow lines)).flatMap rowWords)

def closeBlock (pending : List SourceWord) : List CollapsedText := if pending = [] then [] else [collapse pending]

def blocksFrom : List SourceWord → List (Option Row) → List CollapsedText
  | pending, [] => closeBlock pending
  | pending, none :: rows => closeBlock pending ++ blocksFrom [] rows
  | pending, some row :: rows => blocksFrom (pending ++ rowWords row) rows

def lineCommentBlocks (lines : FileLines) : List CollapsedText := blocksFrom [] (lines.zipIdx.map (commentRow lines))

structure QuoteMatch where
  start : Nat
  stop : Nat
  sourceByteStart : Nat
  sourceByteEnd : Nat

def searchMark (marks : List WordMark) (offset : Nat) : Nat → Nat → Nat → Nat
  | 0, low, _ => low
  | fuel + 1, low, high =>
    if low < high then
      let middle := (low + high) / 2
      if (marks[middle]?).any fun m => m.collapsedStart ≤ offset then searchMark marks offset fuel (middle + 1) high
      else searchMark marks offset fuel low middle
    else low

/-- No value stands for the `StopIteration` of an offset outside of every word. -/
def wordMarkAt (marks : List WordMark) (offset : Nat) : Option WordMark :=
  match searchMark marks offset marks.length 0 marks.length with
  | 0 => none
  | low + 1 => (marks[low]?).filter fun found => offset < found.collapsedEnd

def placesOf (target : List Char) : Nat → List Char → List Nat
  | _, [] => []
  | at_, c :: cs => if target.isPrefixOf (c :: cs) then at_ :: placesOf target (at_ + 1) cs else placesOf target (at_ + 1) cs

def quoteMatchAt (marks : List WordMark) (start stop : Nat) : Option QuoteMatch := do
  let first ← wordMarkAt marks start
  let last ← wordMarkAt marks (stop - 1)
  some ⟨first.line, last.line,
    first.sourceByteStart + (Utf8.encode (first.text.take (start - first.collapsedStart))).length,
    last.sourceByteStart + (Utf8.encode (last.text.take (stop - last.collapsedStart))).length⟩

def quoteMatchesIn (quote : List Char) (stream : CollapsedText) : List QuoteMatch :=
  let target := normalised quote
  if target = [] then []
  else (placesOf target 0 stream.text).filterMap fun start => quoteMatchAt stream.marks start (start + target.length)

end AgentsRemember.Citations
