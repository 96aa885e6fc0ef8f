import AgentsRemember.Lib.Dict
import AgentsRemember.Lib.Lines
import AgentsRemember.Lib.Utf8

/-!
# Editing memory documents

`citations/editing.py`, and the writes of `fixer.py` and `migration.py`: a
document is opened as text, split at its newlines, edited by line number and
offset, joined with newlines and written back. The migration plans on lines
that `str.splitlines` cuts.
-/

namespace AgentsRemember.Citations

open Lib Lib.Lines

structure Site where
  line : Nat
  start : Nat
  stop : Nat

abbrev SiteEdit := Site × List Char

def readText (bytes : List UInt8) : Option (List Char) := (Utf8.decode bytes).map universal

/-- `Documents.lines`. -/
def documentLines (text : List Char) : List (List Char) := split isNewline text

/-- `Sources.lines`, which the migration reads its documents with. -/
def sourceLines (text : List Char) : List (List Char) := splitlines text

/-! ## Splicing -/

def body (line : List Char) (site : Site) : List Char := (line.drop site.start).take (site.stop - site.start)

def place (line : List Char) (site : Site) : Nat × Nat :=
  let body := body line site
  let start := site.start + (body.length - (body.dropWhile isPythonSpace).length)
  (start, max start (site.stop - body.length + (body.rdropWhile isPythonSpace).length))

def spliced (line : List Char) (site : Site) (text : List Char) : List Char :=
  line.take (place line site).1 ++ text ++ line.drop (place line site).2

/-- The order of `sorted(edits, key=(line, start), reverse=True)`. -/
def later (a b : SiteEdit) : Bool := b.1.line < a.1.line || (b.1.line = a.1.line && b.1.start ≤ a.1.start)

def spliceAt (lines : List (List Char)) (edit : SiteEdit) : Option (List (List Char)) :=
  if edit.1.line - 1 < lines.length then some (lines.modify (edit.1.line - 1) fun line => spliced line edit.1 edit.2) else none

/-- `rewritten`; no value stands for the `IndexError` of a line that is not there. -/
def rewritten (lines : List (List Char)) (edits : List SiteEdit) : Option (List (List Char)) :=
  (edits.mergeSort later).foldlM spliceAt lines

/-- What the fixer leaves in a document's file. -/
def fixDocument (bytes : List UInt8) (edits : List SiteEdit) : Option (List UInt8) :=
  if edits = [] then some bytes
  else do
    let text ← readText bytes
    let lines ← rewritten (documentLines text) edits
    some (Utf8.encode (['\n'].intercalate lines))

structure Edit where
  lines : Dict Nat (List Char)
  spans : List SiteEdit

def setLine (lines : List (List Char)) (edit : Nat × List Char) : Option (List (List Char)) :=
  if edit.1 - 1 < lines.length then some (lines.set (edit.1 - 1) edit.2) else none

/-- What the migration leaves in a document's file. -/
def migrateDocument (bytes : List UInt8) (edit : Edit) : Option (List UInt8) :=
  if edit.lines.entries = [] ∧ edit.spans = [] then some bytes
  else do
    let text ← readText bytes
    let lines ← rewritten (documentLines text) edit.spans
    let lines ← edit.lines.entries.foldlM setLine lines
    some (Utf8.encode (['\n'].intercalate lines))

end AgentsRemember.Citations
