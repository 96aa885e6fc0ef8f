import AgentsRemember.Lib.LineEdits

/-!
# What git writes

In the text of `git status --porcelain` a name is its bytes. Git writes it as it is, or in double quotes with escapes
where it has a blank, a quote, a backslash, a control byte or a byte that is not
ASCII. An entry is one line: two letters, a blank, the name, and before it the
old name of a rename with an arrow. So the text has no line break but between
its entries.
-/

namespace Lib

namespace GitStatus

open Lines

abbrev Name := List UInt8

def byteChar (b : UInt8) : Char := Char.ofNat b.toNat

def byteText (name : Name) : List Char := name.map byteChar

def octal (n : Nat) : List Char := [Nat.digitChar (n / 64 % 8), Nat.digitChar (n / 8 % 8), Nat.digitChar (n % 8)]

def escapeOf (b : UInt8) : Option (List Char) :=
  if b = 7 then some ['\\', 'a']
  else if b = 8 then some ['\\', 'b']
  else if b = 9 then some ['\\', 't']
  else if b = 10 then some ['\\', 'n']
  else if b = 11 then some ['\\', 'v']
  else if b = 12 then some ['\\', 'f']
  else if b = 13 then some ['\\', 'r']
  else if b = 34 then some ['\\', doubleQuote]
  else if b = 92 then some ['\\', '\\']
  else if b < 32 ∨ 127 ≤ b then some ('\\' :: octal b.toNat)
  else none

def quoted (name : Name) : Bool := name.any fun b => (escapeOf b).isSome || b = 32

def writtenByte (b : UInt8) : List Char := (escapeOf b).getD [byteChar b]

def written (name : Name) : List Char :=
  if quoted name then doubleQuote :: name.flatMap writtenByte ++ [doubleQuote] else byteText name

inductive Letter
  | unmodified | modified | typeChanged | added | deleted | renamed | copied | unmerged | untracked | ignored

def Letter.char : Letter → Char
  | unmodified => ' '
  | modified => 'M'
  | typeChanged => 'T'
  | added => 'A'
  | deleted => 'D'
  | renamed => 'R'
  | copied => 'C'
  | unmerged => 'U'
  | untracked => '?'
  | ignored => '!'

structure Entry where
  index : Letter
  worktree : Letter
  path : Name
  source : Option Name := none

def arrow : List Char := [' ', '-', '>', ' ']

def Entry.names (e : Entry) : List Char :=
  match e.source with
  | none => written e.path
  | some source => written source ++ arrow ++ written e.path

def Entry.line (e : Entry) : List Char := e.index.char :: e.worktree.char :: ' ' :: e.names

def statusText (entries : List Entry) : List Char := unlines '\n' (entries.map Entry.line)

/-! ## No line breaks -/

def printable (c : Char) : Bool := 32 ≤ c.toNat && c.toNat < 127

theorem writtenByte_printable : ∀ b : UInt8, (writtenByte b).all printable = true := by
  have hall : ∀ n : Fin 256, (writtenByte (UInt8.ofNat n.val)).all printable = true := by decide +kernel
  intro b
  have hb := hall ⟨b.toNat, b.toNat_lt⟩
  rwa [UInt8.ofNat_toNat] at hb

variable {b : UInt8}

theorem byteChar_printable (h : escapeOf b = none) : printable (byteChar b) = true := by
  have hall := writtenByte_printable b
  rw [writtenByte, h] at hall
  simpa using hall

theorem escapeOf_of_not_quoted {name : Name} (h : quoted name = false) (hb : b ∈ name) :
    escapeOf b = none ∧ b ≠ 32 := by
  have hone := List.any_eq_false.mp h b hb
  simpa using hone

theorem written_printable (name : Name) : ∀ c ∈ written name, printable c = true := by
  intro c hc
  rw [written] at hc
  split at hc
  · rw [List.cons_append, List.mem_cons, List.mem_append, List.mem_singleton, List.mem_flatMap] at hc
    rcases hc with rfl | ⟨b, -, hb⟩ | rfl
    · decide
    · exact List.all_eq_true.mp (writtenByte_printable b) c hb
    · decide
  rename_i hplain
  obtain ⟨b, hb, rfl⟩ := List.mem_map.mp hc
  exact byteChar_printable (escapeOf_of_not_quoted (by simpa using hplain) hb).1

theorem not_lineBreak_of_printable {c : Char} (h : printable c = true) : isLineBreak c = false := by
  simp only [printable, Bool.and_eq_true, decide_eq_true_eq] at h
  simp only [isLineBreak, Bool.or_eq_false_iff, Bool.and_eq_false_iff, decide_eq_false_iff_not]
  omega

theorem line_printable (e : Entry) : ∀ c ∈ e.line, printable c = true := by
  have hnames : ∀ c ∈ e.names, printable c = true := by
    intro c hc
    rw [Entry.names] at hc
    split at hc
    · exact written_printable _ c hc
    rcases List.mem_append.mp hc with hc | hc
    · rcases List.mem_append.mp hc with hc | hc
      · exact written_printable _ c hc
      · exact List.all_eq_true.mp (by decide : arrow.all printable = true) c hc
    · exact written_printable _ c hc
  intro c hc
  simp only [Entry.line, List.mem_cons] at hc
  rcases hc with rfl | rfl | rfl | hc
  · cases e.index <;> rfl
  · cases e.worktree <;> rfl
  · rfl
  · exact hnames c hc

theorem splitlines_statusText (entries : List Entry) :
    splitlines (universal (statusText entries)) = entries.map Entry.line := by
  have hcr : '\r' ∉ statusText entries := by
    intro hmem
    obtain ⟨line, hline, hc⟩ := List.mem_flatMap.mp hmem
    obtain ⟨e, -, rfl⟩ := List.mem_map.mp hline
    rcases List.mem_append.mp hc with hc | hc
    · exact absurd (line_printable e _ hc) (by decide)
    · exact absurd (List.mem_singleton.mp hc) (by decide)
  rw [universal_of_no_cr hcr, splitlines_of_no_cr hcr, statusText, breakLines_unlines _ rfl]
  have hline : ∀ e : Entry, split isLineBreak e.line = [e.line] :=
    fun e => split_of_all fun c hc => not_lineBreak_of_printable (line_printable e c hc)
  rw [List.flatMap_map]
  simp only [hline]
  exact List.map_eq_flatMap.symm

end GitStatus

namespace GitDiff

/-! ## The text of `git diff --unified=0`

A file of the diff is its new and its old side in one: lines that both have, and
changes. Each change is a hunk. A name is written as it is, or in double quotes
with escapes where it has a quote, a backslash or a control character; so is
what `git ls-files` lists.
-/

open Lines

abbrev Line := List Char

/-! ## Names -/

def escapeOf (c : Char) : Option (List Char) :=
  if c.toNat < 128 then GitStatus.escapeOf (UInt8.ofNat c.toNat) else none

def quoted (name : Line) : Bool := name.any fun c => (escapeOf c).isSome

/-- A name with `core.quotePath` off. -/
def written (name : Line) : Line :=
  if quoted name then doubleQuote :: name.flatMap (fun c => (escapeOf c).getD [c]) ++ [doubleQuote] else name

/-- What stands behind `---` or `+++`; a side that has no file is `none`. -/
def label (side : Line) : Option Line → Line
  | none => "/dev/null".toList
  | some name => written (side ++ name) ++ if ' ' ∈ written (side ++ name) then ['\t'] else []

theorem label_none (side : Line) : label side none = "/dev/null".toList := rfl

theorem label_some (side name : Line) :
    label side (some name) = written (side ++ name) ++ if ' ' ∈ written (side ++ name) then ['\t'] else [] := rfl

def oldSide : Line := "a/".toList

def newSide : Line := "b/".toList

def oldHeader (name : Option Line) : Line := "--- ".toList ++ label oldSide name

def newHeader (name : Option Line) : Line := "+++ ".toList ++ label newSide name

/-! ## Hunks -/

def span (before : Nat) : Nat → Line
  | 0 => Nat.toDigits 10 before ++ ",0".toList
  | 1 => Nat.toDigits 10 (before + 1)
  | count => Nat.toDigits 10 (before + 1) ++ ',' :: Nat.toDigits 10 count

def openMark : Line := "\\ No newline at end of file".toList

/-- A change: how many lines each side has before it, the text behind the mark, the lines, and whether the last of
them is the last of its side and ends with no line feed. -/
structure Hunk where
  oldBefore : Nat
  newBefore : Nat
  heading : Line
  removed : List Line
  added : List Line
  oldOpen : Bool
  newOpen : Bool

def sideLines (mark : Char) (lines : List Line) (isOpen : Bool) : List Line :=
  lines.map (mark :: ·) ++ if isOpen ∧ lines ≠ [] then [openMark] else []

namespace Hunk

def spans (h : Hunk) : Line :=
  "@@ -".toList ++ span h.oldBefore h.removed.length ++ " +".toList ++ span h.newBefore h.added.length ++ " @@".toList

def markLine (h : Hunk) : Line := h.spans ++ h.heading

def body (h : Hunk) : List Line := sideLines '-' h.removed h.oldOpen ++ sideLines '+' h.added h.newOpen

end Hunk

inductive Segment
  | keep (lines : List Line)
  | change (heading : Line) (removed added : List Line)

namespace Segment

def old : Segment → List Line
  | keep lines => lines
  | change _ removed _ => removed

def new : Segment → List Line
  | keep lines => lines
  | change _ _ added => added

def flagged : Segment → List (Line × Bool)
  | keep lines => lines.map (·, false)
  | change _ _ added => added.map (·, true)

end Segment

def hunksFrom (oldOpen newOpen : Bool) : Nat → Nat → List Segment → List Hunk
  | _, _, [] => []
  | oldBefore, newBefore, .keep lines :: rest =>
    hunksFrom oldOpen newOpen (oldBefore + lines.length) (newBefore + lines.length) rest
  | oldBefore, newBefore, .change heading removed added :: rest =>
    ⟨oldBefore, newBefore, heading, removed, added, oldOpen && rest.flatMap Segment.old = [],
        newOpen && rest.flatMap Segment.new = []⟩ ::
      hunksFrom oldOpen newOpen (oldBefore + removed.length) (newBefore + added.length) rest

/-! ## Files -/

/-- A file of a diff: the lines in front of its two headers, its names, and its text; a side is open when its last
line ends with no line feed, and then there is something on that line. -/
structure FileDiff where
  extended : List Line
  oldName : Option Line
  newName : Option Line
  segments : List Segment
  oldOpen : Bool := false
  newOpen : Bool := false
  newLast : newOpen = true → (segments.flatMap Segment.new).getLast? ≠ some [] := by decide

namespace FileDiff

def hunks (f : FileDiff) : List Hunk := hunksFrom f.oldOpen f.newOpen 0 0 f.segments

def headers (f : FileDiff) : List Line := if f.hunks = [] then [] else [oldHeader f.oldName, newHeader f.newName]

def lines (f : FileDiff) : List Line :=
  f.extended ++ f.headers ++ f.hunks.flatMap fun h => h.markLine :: h.body

def flagged (f : FileDiff) : List (Line × Bool) := f.segments.flatMap Segment.flagged

def ended (isOpen : Bool) : List (Line × Bool) → List (Line × Bool)
  | [] => []
  | [(line, added)] => [(if isOpen then line else line ++ ['\n'], added)]
  | (line, added) :: next :: rest => (line ++ ['\n'], added) :: ended isOpen (next :: rest)

def newText (f : FileDiff) : List (Line × Bool) := ended f.newOpen f.flagged

end FileDiff

def diffText (files : List FileDiff) : Line := unlines '\n' (files.flatMap FileDiff.lines)

def namesText (names : List Line) : Line := unlines '\n' (names.map written)

end GitDiff

end Lib
