import AgentsRemember.Lib.Lines
import Mathlib.Data.Int.Order.Basic
import Mathlib.Data.List.Dedup
import Mathlib.Data.List.Sort
import Mathlib.Data.Prod.Lex

/-!
# The order of Update History sections

`history_order.py` and `history_order_fix.py`. A section starts behind its
heading and ends at the next heading of its level. The checker compares the
timestamps of its bullets; the fixer sorts the blocks that the bullets start.
-/

namespace AgentsRemember

/-- `memory_quality/style/finding.py`: what a check of the memory documents reports. A path is relative to the
onboarding root. -/
structure QualityFinding where
  check : String
  path : List Char
  line : Nat
  severity : String
  code : String
  message : String
  timestamp : Option String := none
  previousTimestamp : Option String := none
  previousLine : Option Nat := none
  reportOnly : Bool := false
  deriving DecidableEq

namespace History

open Lib Lines

abbrev Line := List Char

/-! ## Lines -/

def captured (cs : Line) : Option Line :=
  match cs.takeWhile isPythonSpace, cs.dropWhile isPythonSpace with
  | [], _ => none
  | _ :: _, c :: rest => some ((c :: rest).rdropWhile isPythonSpace)
  | [_], [] => none
  | _ :: c :: blanks, [] => some [(c :: blanks).getLastD c]

def heading (line : Line) : Option (Nat × Line) :=
  let marks := (line.takeWhile fun c => decide (c = '#')).length
  if 1 ≤ marks ∧ marks ≤ 6 then (captured (line.drop marks)).map fun title => (marks, title) else none

def bulletBody (line : Line) : Option Line :=
  match line.dropWhile isPythonSpace with
  | c :: rest => if c = '-' ∨ c = '*' then captured rest else none
  | [] => none

def isBullet (line : Line) : Bool := (bulletBody line).isSome

def isHistory (line : Line) : Bool :=
  match heading line with
  | some (marks, title) => marks = 2 && strip title = "Update History".toList
  | none => false

def endsSection (line : Line) : Bool :=
  match heading line with
  | some (marks, _) => marks ≤ 2
  | none => false

def sectionsFrom : Nat → List Line → List (Nat × Nat)
  | _, [] => []
  | index, line :: lines =>
    if isHistory line then
      (index + 1, index + 1 + (lines.takeWhile fun l => !endsSection l).length) :: sectionsFrom (index + 1) lines
    else sectionsFrom (index + 1) lines

def updateHistorySections (lines : List Line) : List (Nat × Nat) := sectionsFrom 0 lines

def slice (lines : List Line) (range : Nat × Nat) : List Line := (lines.take range.2).drop range.1

/-! ## Timestamps -/

/-- `d` stands for a digit, everything else for itself; the text behind the shape. -/
def shaped (digit : Char → Bool) : List Char → List Char → Option (List Char)
  | [], cs => some cs
  | s :: shape, c :: cs => if (if s = 'd' then digit c else c = s) then shaped digit shape cs else none
  | _ :: _, [] => none

def minuteShape : List Char := "dddd-dd-ddTdd:dd".toList

def secondShape : List Char := ":dd".toList

def offsetShapes : List (List Char) := ["Z", "+dd:dd", "+dddd", "-dd:dd", "-dddd"].map String.toList

variable (digit : Char → Bool)

def optional (shapes : List (List Char)) (cs : List Char) : List (List Char) := shapes.filterMap (shaped digit · cs) ++ [cs]

def delimited (rest : List Char) : Bool := rest.head?.all fun c => c = ':' || isPythonSpace c

def parseTimestamp (text : List Char) : Option (List Char) :=
  let cs := strip text
  let rest := (shaped digit minuteShape cs).bind fun rest =>
    ((optional digit [secondShape] rest).flatMap (optional digit offsetShapes)).find? delimited
  rest.map fun rest => cs.take (cs.length - rest.length)

def hasOffset (timestamp : List Char) : Bool :=
  timestamp.tails.any fun t => offsetShapes.any fun shape => shaped digit shape t = some []

/-- What `datetime_value` makes of a timestamp; `overflow` is the `OverflowError` of the conversion to UTC. -/
inductive TimeValue
  | moment (micros : Int)
  | invalid
  | overflow
  deriving DecidableEq

def minMicros : Int := -62135596800000000

def maxMicros : Int := 253402300799999999

variable (parse : String → Option Stamp)

def coloned (text : List Char) : List Char :=
  let ending := text.drop (text.length - 5)
  if shaped digit "+dddd".toList ending = some [] ∨ shaped digit "-dddd".toList ending = some [] then
    text.take (text.length - 2) ++ ':' :: text.drop (text.length - 2)
  else text

def datetimeValue (timestamp : List Char) : TimeValue :=
  if timestamp = [] then .moment maxMicros
  else
    let text := coloned digit (timestamp.flatMap fun c => if c = 'Z' then "+00:00".toList else [c])
    match parse (String.ofList text) with
    | none => .invalid
    | some stamp =>
      match stamp.offset with
      | none => .moment stamp.micros
      | some offset =>
        if minMicros ≤ stamp.micros - offset ∧ stamp.micros - offset ≤ maxMicros then .moment (stamp.micros - offset)
        else .overflow

/-! ## The checker -/

def checkName : String := "style.update_history.history_order"

structure HistoryEntry where
  line : Nat
  timestamp : List Char
  value : Int
  isValid : Bool := true
  hasOffset : Bool := true

def malformedEntry (line : Nat) : HistoryEntry := { line := line, timestamp := [], value := maxMicros, isValid := false }

def invalidEntry (line : Nat) (timestamp : List Char) : HistoryEntry :=
  { line := line, timestamp := timestamp, value := maxMicros, isValid := false }

/-- The entries of the lines from number `line` on; no value stands for an `OverflowError`. -/
def parseEntries : Nat → List Line → Option (List HistoryEntry)
  | _, [] => some []
  | line, l :: lines =>
    match bulletBody l with
    | none => parseEntries (line + 1) lines
    | some body =>
      match parseTimestamp digit body with
      | none => (parseEntries (line + 1) lines).map (malformedEntry line :: ·)
      | some timestamp =>
        match datetimeValue digit parse timestamp with
        | .overflow => none
        | .invalid => (parseEntries (line + 1) lines).map (invalidEntry line timestamp :: ·)
        | .moment value =>
          (parseEntries (line + 1) lines).map
            ({ line := line, timestamp := timestamp, value := value, hasOffset := hasOffset digit timestamp } :: ·)

def missingFinding (entry : HistoryEntry) (relative : List Char) : QualityFinding :=
  { check := checkName, path := relative, line := entry.line, severity := "warning"
    code := "update_history_timestamp_missing"
    message := "Update History bullet must start with an ISO timestamp." }

def invalidFinding (entry : HistoryEntry) (relative : List Char) : QualityFinding :=
  { check := checkName, path := relative, line := entry.line, severity := "warning"
    code := "update_history_timestamp_invalid"
    message := "Update History timestamp must be a valid ISO datetime."
    timestamp := some (String.ofList entry.timestamp) }

def naiveFinding (entry : HistoryEntry) (relative : List Char) : QualityFinding :=
  { check := checkName, path := relative, line := entry.line, severity := "warning"
    code := "update_history_timestamp_naive"
    message :=
      "Update History timestamp states no UTC offset, so it cannot be ordered against the offset-bearing entries around it. Append the author's offset (for example '+02:00')."
    timestamp := some (String.ofList entry.timestamp) }

def orderCode : String := "update_history_not_newest_first"

def orderFinding (entry : HistoryEntry) (relative : List Char) (previous : HistoryEntry) : QualityFinding :=
  { check := checkName, path := relative, line := entry.line, severity := "warning", code := orderCode
    message := "Update History entries are not newest-first."
    timestamp := some (String.ofList entry.timestamp)
    previousTimestamp := some (String.ofList previous.timestamp)
    previousLine := some previous.line }

def entryFindings (entry : HistoryEntry) (relative : List Char) (previous : Option HistoryEntry) (isTouched : Bool) :
    List QualityFinding :=
  if entry.timestamp = [] then [missingFinding entry relative]
  else if !entry.isValid then [invalidFinding entry relative]
  else
    (if !entry.hasOffset && isTouched then [naiveFinding entry relative] else []) ++
      match previous with
      | some p => if entry.value > p.value then [orderFinding entry relative p] else []
      | none => []

def orderFindings (relative : List Char) (touched : Nat → Bool) :
    (Bool → Option HistoryEntry) → List HistoryEntry → List QualityFinding
  | _, [] => []
  | previous, entry :: entries =>
    let next := if entry.timestamp ≠ [] ∧ entry.isValid then
      fun frame => if frame = entry.hasOffset then some entry else previous frame
    else previous
    entryFindings entry relative (previous entry.hasOffset) (touched entry.line) ++
      orderFindings relative touched next entries

def sectionFindings (relative : List Char) (touched : Nat → Bool) (lines : List Line) (range : Nat × Nat) :
    Option (List QualityFinding) :=
  (parseEntries digit parse (range.1 + 1) (slice lines range)).map (orderFindings relative touched fun _ => none)

def checkFile (relative : List Char) (touched : Nat → Bool) (text : List Char) : Option (List QualityFinding) :=
  let lines := splitlines (universal text)
  ((updateHistorySections lines).mapM (sectionFindings digit parse relative touched lines)).map List.flatten

/-! ## The fixer -/

abbrev Block := List Line

def bulletBlocks : List Line → List Line → Option Block → List Block → List Line × List Block
  | [], head, current, blocks => (head, blocks ++ current.toList)
  | line :: lines, head, current, blocks =>
    if isBullet line then bulletBlocks lines head (some [line]) (blocks ++ current.toList)
    else
      match current with
      | none => bulletBlocks lines (head ++ [line]) none blocks
      | some block => bulletBlocks lines head (some (block ++ [line])) blocks

def parseBulletBlocks (section_ : List Line) : List Line × List Block := bulletBlocks section_ [] none []

def blockTimestampText (block : Block) : Option (List Char) :=
  match block with
  | [] => none
  | line :: _ => (bulletBody line).bind (parseTimestamp digit)

/-- `block_timestamp`, where `invalid` stands for `None`. -/
def blockTimestamp (block : Block) : TimeValue :=
  match blockTimestampText digit block with
  | none => .invalid
  | some timestamp => datetimeValue digit parse timestamp

def mixesTimestampFrames (blocks : List Block) : Bool :=
  decide (1 < (((blocks.filterMap (blockTimestampText digit)).filter (· ≠ [])).map (hasOffset digit)).dedup.length)

def anyUndated : List Block → Option Bool
  | [] => some false
  | block :: blocks =>
    match blockTimestamp digit parse block with
    | .overflow => none
    | .invalid => some true
    | .moment _ => anyUndated blocks

def blockValue (block : Block) : Int :=
  match blockTimestamp digit parse block with
  | .moment value => value
  | _ => minMicros

def sortKey (item : Block × Nat) : Int ×ₗ Int := toLex (blockValue digit parse item.1, -(item.2 : Int))

def sortedBlocks (blocks : List Block) : List Block :=
  (blocks.zipIdx.insertionSort fun a b => sortKey digit parse b ≤ sortKey digit parse a).map Prod.fst

def sortSection (section_ : List Line) : Option (List Line × Bool) :=
  let (head, blocks) := parseBulletBlocks section_
  if blocks = [] then some (section_, false)
  else
    match anyUndated digit parse blocks with
    | none => none
    | some true => some (section_, true)
    | some false =>
      if mixesTimestampFrames digit blocks then some (section_, true)
      else some (head ++ (sortedBlocks digit parse blocks).flatten, false)

structure Sorted where
  updated : List Line
  changed : Bool
  skipped : Bool

def sortOne (state : Sorted) (range : Nat × Nat) : Option Sorted :=
  let section_ := slice state.updated range
  match sortSection digit parse section_ with
  | none => none
  | some (sorted, sectionSkipped) =>
    let skipped := state.skipped || sectionSkipped
    if sorted = section_ then some { state with skipped := skipped }
    else
      some
        { updated := state.updated.take range.1 ++ sorted ++ state.updated.drop range.2
          changed := true
          skipped := skipped }

def sortUpdateHistorySections (lines : List Line) : Option Sorted :=
  (updateHistorySections lines).reverse.foldlM (sortOne digit parse) ⟨lines, false, false⟩

structure FixResult where
  changed : Bool
  skipped : Bool
  deriving DecidableEq

/-- `fix_file`: the text of the file afterwards, and the answer. -/
def fixFile (dryRun : Bool) (text : List Char) : Option (List Char × FixResult) :=
  let read := universal text
  let trailingNewline := read.getLast? = some '\n'
  (sortUpdateHistorySections digit parse (splitlines read)).map fun sorted =>
    (if sorted.changed && !dryRun then
        ['\n'].intercalate sorted.updated ++ (if trailingNewline then ['\n'] else [])
      else text,
      ⟨sorted.changed, sorted.skipped⟩)

end History

end AgentsRemember
