import AgentsRemember.Citations.SourceText
import AgentsRemember.Lib.Packing

/-!
# The codecs of the source index

`source_index_database.py`: postings are packed, collected by the key of their
anchor and appended to the rows of the database; a quote stream is stored as its
text and the marks of its words.
-/

namespace AgentsRemember.Citations

open Lib Lib.Packing

inductive IndexError
  | database (text : String)
  /-- The `struct.error` of a number that is too big. -/
  | structError
  /-- The `KeyError` of an extent that has no code. -/
  | keyError

def orRaise {α : Type} (e : IndexError) : Option α → Except IndexError α
  | some a => .ok a
  | none => .error e

def markFormat : Format := [4, 4, 4, 4]

def extentRecord : Format := [4, 4, 1]

def postingHeader : Format := [4, 2]

def postingBufferBytes : Nat := 4 * 1024 * 1024

def postingBufferKeys : Nat := 64 * 1024

def extentCode : ExtentKind → Option Nat
  | .definition => some 0
  | .occurrence => some 1
  | .section => some 2
  | .quoted => none
  | .call => none

def extentKind : Nat → Option ExtentKind
  | 0 => some .definition
  | 1 => some .occurrence
  | 2 => some .section
  | _ => none

/-! ## Postings -/

def packExtent (one : Extent) : Except IndexError Bytes := do
  let code ← orRaise .keyError (extentCode one.kind)
  orRaise .structError (pack extentRecord [one.start, one.stop, code])

def packExtents (spans : List Extent) : Except IndexError Bytes := do
  let packed ← spans.mapM packExtent
  pure packed.flatten

abbrev Posting := Nat × List Extent

def packPosting (posting : Posting) : Except IndexError Bytes :=
  if posting.2.length > 0xFFFF then .error (.database "citation anchor has too many extents in one file")
  else do
    let header ← orRaise .structError (pack postingHeader [posting.1, posting.2.length])
    let spans ← packExtents posting.2
    pure (header ++ spans)

def unpackExtent : List Nat → Except IndexError Extent
  | [start, stop, code] => do
    let kind ← orRaise (.database "citation source-index extent kind is corrupt") (extentKind code)
    pure ⟨start, stop, kind⟩
  | _ => .error .structError

def unpackExtents (payload : Bytes) : Except IndexError (List Extent) :=
  if payload.length % size extentRecord ≠ 0 then .error (.database "citation source-index extent posting is corrupt")
  else (records extentRecord payload).mapM unpackExtent

def unpackPostingsFrom : Nat → Bytes → Except IndexError (List Posting)
  | _, [] => .ok []
  | 0, _ :: _ => .error .structError
  | fuel + 1, payload =>
    if payload.length < size postingHeader then .error (.database "citation source-index posting header is corrupt")
    else
      match unpack postingHeader payload with
      | [fileId, count] =>
        let body := payload.drop (size postingHeader)
        let stop := count * size extentRecord
        if stop > body.length then .error (.database "citation source-index posting body is corrupt")
        else do
          let spans ← unpackExtents (body.take stop)
          let found ← unpackPostingsFrom fuel (body.drop stop)
          pure ((fileId, spans) :: found)
      | _ => .error .structError

def unpackPostings (payload : Bytes) : Except IndexError (List Posting) := unpackPostingsFrom payload.length payload

/-! ## The buffer -/

section
variable {κ : Type} [DecidableEq κ]

/-- `posting_buffer` and the table `direct_postings`. -/
structure PostingTable (κ : Type) [DecidableEq κ] where
  buffer : Dict κ Bytes
  bufferBytes : Nat
  stored : Dict κ Bytes

def PostingTable.empty : PostingTable κ := ⟨Dict.empty, 0, Dict.empty⟩

def appendTo (rows : Dict κ Bytes) (key : κ) (bs : Bytes) : Dict κ Bytes := rows.set key ((rows.get? key).getD [] ++ bs)

/-- `_flush_postings`: a row that is there gets the bytes behind its own. -/
def flushPostings (table : PostingTable κ) : PostingTable κ :=
  if table.buffer.entries = [] then table
  else
    { buffer := Dict.empty
      bufferBytes := 0
      stored := table.buffer.entries.foldl (fun rows e => appendTo rows e.1 e.2) table.stored }

variable (anchorKey : Anchor → κ)

def bufferPosting (fileId : Nat) (table : PostingTable κ) (direct : Anchor × List Extent) :
    Except IndexError (PostingTable κ) := do
  let posting ← packPosting (fileId, direct.2)
  pure { table with
    buffer := appendTo table.buffer (anchorKey direct.1) posting
    bufferBytes := table.bufferBytes + posting.length }

def bufferPostings (table : PostingTable κ) (fileId : Nat) (direct : List (Anchor × List Extent)) :
    Except IndexError (PostingTable κ) := do
  let table ← direct.foldlM (bufferPosting anchorKey fileId) table
  if table.bufferBytes ≥ postingBufferBytes ∨ table.buffer.entries.length ≥ postingBufferKeys then pure (flushPostings table)
  else pure table

end

/-! ## Streams -/

/-- The compression of a stored text, which gives back what it took. -/
structure Zlib where
  compress : Bytes → Bytes
  decompress : Bytes → Option Bytes
  decompress_compress : ∀ raw, decompress (compress raw) = some raw

variable (zlib : Zlib)

def packText (text : List Char) : Bytes := zlib.compress (Utf8.encode text)

def unpackText (payload : Bytes) : Except IndexError (List Char) :=
  orRaise (.database "citation source-index quote text is corrupt") ((zlib.decompress payload).bind Utf8.decode)

def markNumbers (mark : WordMark) : List Nat := [mark.collapsedStart, mark.collapsedEnd, mark.line, mark.sourceByteStart]

def packMarks (marks : List WordMark) : Except IndexError Bytes := do
  let packed ← marks.mapM fun mark => orRaise .structError (pack markFormat (markNumbers mark))
  pure (zlib.compress packed.flatten)

def corruptMap : IndexError := .database "citation source-index word map is corrupt"

def unpackMark (text : List Char) : List Nat → Except IndexError WordMark
  | [start, stop, line, sourceStart] =>
    if start > stop ∨ stop > text.length ∨ line < 1 then .error corruptMap
    else .ok ⟨start, stop, line, sourceStart, (text.take stop).drop start⟩
  | _ => .error .structError

def unpackMarks (text : List Char) (payload : Bytes) : Except IndexError (List WordMark) := do
  let raw ← orRaise corruptMap (zlib.decompress payload)
  if raw.length % size markFormat ≠ 0 then .error corruptMap
  else (records markFormat raw).mapM (unpackMark text)

end AgentsRemember.Citations
