import AgentsRemember.Lib.GitText
import AgentsRemember.Style.ChangedLines
import AgentsRemember.Style.HistorySound

/-!
# What the changed lines cover

The lines of a diff are told apart by how they start, after they were cut at
more breaks than the line feed. So the scope is what the diff says where no
piece of a line of content starts as a header or as a hunk mark, and where each
line up to a changed one is one line for the checks as well.
-/

namespace AgentsRemember.Changed

open Lib Lines GitDiff
open Citations (joinPath)
open History (linesOf)

/-! ## The scope of a diff -/

def AddedIn (f : FileDiff) (n : Nat) : Prop :=
  ∃ before text after, f.newText = before ++ (text, true) :: after ∧
    (linesOf (before.map Prod.fst).flatten).length < n ∧ n ≤ (linesOf ((before.map Prod.fst).flatten ++ text)).length

def under (repository : PosixPath) (name : Line) : PosixPath := joinPath repository (String.ofList name)

def InScope (repository : PosixPath) (file : PosixPath → Option (List Char)) (files : List FileDiff) (others : List Line)
    (path : PosixPath) (n : Nat) : Prop :=
  (∃ f ∈ files, ∃ name, f.newName = some name ∧ path = under repository name ∧ AddedIn f n) ∨
    ∃ name ∈ others, path = under repository name ∧ ∃ text, file path = some text ∧ 1 ≤ n ∧ n ≤ (linesOf text).length

/-- Git answers with this diff and these names. -/
structure Asked (git : Git) (repository : PosixPath) (files : List FileDiff) (others : List Line) : Prop where
  root : repositoryRoot git = some repository
  diff : git.diff = some (diffText files)
  others : git.others = some (namesText others)

section
variable (digit : Char → Option Nat)

/-- The table of digits has the ASCII digits, and neither a blank nor a comma. -/
structure Digits : Prop where
  ascii : ∀ n < 10, digit (Nat.digitChar n) = some n
  comma : digit ',' = none
  blank : digit ' ' = none

/-- The changed lines are exactly the lines in scope. -/
def Exact (git : Git) (file : PosixPath → Option (List Char)) (repository : PosixPath) (files : List FileDiff)
    (others : List Line) : Prop :=
  ∀ path n, (changedLines digit git file).covers path n = true ↔ InScope repository file files others path n

/-! ## What is read as it is meant -/

def Silent (piece : Line) : Prop := isHeader piece = false ∧ hunkMark digit piece = none

def PlainName (name : Line) : Prop :=
  (∀ c ∈ name, escapeOf c = none ∧ isLineBreak c = false) ∧ name.rdropWhile isPythonSpace = name

def following (h : Hunk) : List Line := (pieces h.markLine).tail ++ h.body.flatMap pieces

/-- Nothing in the file's part of a diff is read as a header or a hunk mark but its headers and its hunk marks. In the
last hunk a header does no harm. -/
structure Heard (f : FileDiff) : Prop where
  extended : ∀ piece ∈ f.extended.flatMap pieces, Silent digit piece
  old : f.hunks ≠ [] → ∀ piece ∈ pieces (oldHeader f.oldName), Silent digit piece
  new : f.hunks ≠ [] → ∀ name, f.newName = some name → PlainName name
  hunks : ∀ h ∈ f.hunks.dropLast, ∀ piece ∈ following h, Silent digit piece
  last : ∀ h ∈ f.hunks.getLast?, ∀ piece ∈ following h, hunkMark digit piece = none

/-- Each line up to an added one is one line for the checks. -/
def Counted (f : FileDiff) : Prop :=
  ∀ before text after, f.newText = before ++ (text, true) :: after →
    ∀ t ∈ before.map Prod.fst ++ [text], (linesOf t).length = 1

/-- Different files stand in different places. -/
structure Distinct (repository : PosixPath) (files : List FileDiff) (others : List Line) : Prop where
  named : ∀ f ∈ files, ∀ g ∈ files, ∀ name name', f.newName = some name → g.newName = some name' →
    under repository name = under repository name' → f = g
  unseen : ∀ f ∈ files, ∀ name, f.newName = some name → ∀ name' ∈ others, under repository name ≠ under repository name'

end

/-! ## Numbers in marks -/

variable {digit : Char → Option Nat} {n : Nat} {name : Line} {f : FileDiff}

theorem toDigits_isSome (hd : Digits digit) : ∀ c ∈ Nat.toDigits 10 n, (digit c).isSome = true := by
  induction n using Nat.strongRecOn with
  | ind n ih =>
    intro c hc
    rcases Nat.lt_or_ge n 10 with hlt | hge
    · rw [Nat.toDigits_of_lt_base hlt, List.mem_singleton] at hc
      rw [hc, hd.ascii n hlt]
      rfl
    rw [Nat.toDigits_of_base_le (by decide) hge, List.mem_append, List.mem_singleton] at hc
    rcases hc with hc | rfl
    · exact ih (n / 10) (by omega) c hc
    · rw [hd.ascii _ (Nat.mod_lt n (by decide))]
      rfl

theorem value_toDigits (hd : Digits digit) (n : Nat) :
    ((Nat.toDigits 10 n).filterMap digit).foldl (fun n d => 10 * n + d) 0 = n := by
  induction n using Nat.strongRecOn with
  | ind n ih =>
    rcases Nat.lt_or_ge n 10 with hlt | hge
    · rw [Nat.toDigits_of_lt_base hlt, List.filterMap_cons_some (hd.ascii n hlt)]
      simp
    rw [Nat.toDigits_of_base_le (by decide) hge, List.filterMap_append, List.foldl_append, ih (n / 10) (by omega),
      List.filterMap_cons_some (hd.ascii _ (Nat.mod_lt n (by decide)))]
    simp only [List.filterMap_nil, List.foldl_cons, List.foldl_nil]
    omega

theorem number_toDigits (hd : Digits digit) (n : Nat) {rest : Line} (hrest : ∀ c ∈ rest.head?, digit c = none) :
    number digit (Nat.toDigits 10 n ++ rest) = some (n, rest) := by
  have hall := toDigits_isSome hd (n := n)
  have hnone : ∀ c ∈ rest.head?, ¬ (digit c).isSome = true := fun c hc => by simp [hrest c hc]
  have htake : (Nat.toDigits 10 n ++ rest).takeWhile (fun c => (digit c).isSome) = Nat.toDigits 10 n := by
    rw [List.takeWhile_append_of_pos hall]
    cases rest with
    | nil => exact List.append_nil _
    | cons c rest => rw [List.takeWhile_cons, if_neg (hnone c rfl), List.append_nil]
  have hdrop : (Nat.toDigits 10 n ++ rest).dropWhile (fun c => (digit c).isSome) = rest := by
    rw [List.dropWhile_append_of_pos hall]
    cases rest with
    | nil => rfl
    | cons c rest => rw [List.dropWhile_cons, if_neg (hnone c rfl)]
  rw [number, htake, hdrop, if_neg Nat.toDigits_ne_nil, value_toDigits hd]

def marked (h : Hunk) : Nat × Nat := (if h.added = [] then h.newBefore else h.newBefore + 1, h.added.length)

theorem numbers_one (hd : Digits digit) (n : Nat) (rest : Line) :
    numbers digit (Nat.toDigits 10 n ++ ' ' :: rest) = some (n, none, ' ' :: rest) := by
  have hblank : ∀ c ∈ (' ' :: rest).head?, digit c = none := by simp [hd.blank]
  rw [numbers, number_toDigits hd n hblank]
  rfl

theorem numbers_two (hd : Digits digit) (n m : Nat) (rest : Line) :
    numbers digit (Nat.toDigits 10 n ++ ',' :: (Nat.toDigits 10 m ++ ' ' :: rest)) = some (n, some m, ' ' :: rest) := by
  have hblank : ∀ c ∈ (' ' :: rest).head?, digit c = none := by simp [hd.blank]
  have hcomma : ∀ c ∈ (',' :: (Nat.toDigits 10 m ++ ' ' :: rest)).head?, digit c = none := by simp [hd.comma]
  rw [numbers, number_toDigits hd n hcomma]
  simp only [number_toDigits hd m hblank]

theorem numbers_span (hd : Digits digit) (before count : Nat) (rest : Line) :
    ∃ found, numbers digit (span before count ++ ' ' :: rest) =
      some (if count = 0 then before else before + 1, found, ' ' :: rest) ∧ found.getD 1 = count := by
  match count with
  | 0 =>
    refine ⟨some 0, ?_, rfl⟩
    rw [span, List.append_assoc]
    exact numbers_two hd before 0 rest
  | 1 => exact ⟨none, numbers_one hd (before + 1) rest, rfl⟩
  | count + 2 =>
    refine ⟨some (count + 2), ?_, rfl⟩
    have hspan : span before (count + 2) = Nat.toDigits 10 (before + 1) ++ ',' :: Nat.toDigits 10 (count + 2) := rfl
    rw [hspan, List.append_assoc]
    exact numbers_two hd (before + 1) (count + 2) rest

theorem hunkMark_spans (hd : Digits digit) (h : Hunk) (behind : Line) :
    hunkMark digit (h.spans ++ behind) = some (marked h) := by
  obtain ⟨found, hold, -⟩ := numbers_span hd h.oldBefore h.removed.length
    ('+' :: (span h.newBefore h.added.length ++ " @@".toList ++ behind))
  obtain ⟨found', hnew, hcount⟩ := numbers_span hd h.newBefore h.added.length ("@@".toList ++ behind)
  have hspans : h.spans ++ behind = "@@ -".toList ++ (span h.oldBefore h.removed.length ++
      ' ' :: '+' :: (span h.newBefore h.added.length ++ " @@".toList ++ behind)) := by
    simp only [Hunk.spans, List.append_assoc]
    rfl
  have hplus : ' ' :: '+' :: (span h.newBefore h.added.length ++ " @@".toList ++ behind) =
      " +".toList ++ (span h.newBefore h.added.length ++ ' ' :: ("@@".toList ++ behind)) := by
    rw [List.append_assoc]
    rfl
  have hend : ' ' :: ("@@".toList ++ behind) = " @@".toList ++ behind := rfl
  rw [hspans, hunkMark, List.dropPrefix?_append_of_beq _ (beq_self_eq_true _), Option.bind_eq_bind, Option.bind_some, hold]
  simp only [Option.bind_eq_bind, Option.bind_some]
  rw [hplus, List.dropPrefix?_append_of_beq _ (beq_self_eq_true _), Option.bind_some, hnew]
  simp only [Option.bind_some]
  rw [hend, List.dropPrefix?_append_of_beq _ (beq_self_eq_true _), Option.bind_some, hcount]
  simp [marked, List.length_eq_zero_iff]

/-! ## Names -/

theorem not_quoted {side name : Line} (hs : quoted side = false) (h : ∀ c ∈ name, escapeOf c = none) :
    quoted (side ++ name) = false := by
  rw [quoted] at hs ⊢
  rw [List.any_append, hs, Bool.false_or, List.any_eq_false]
  intro c hc
  simp [h c hc]

theorem written_of_plain {name : Line} (h : ∀ c ∈ name, escapeOf c = none) : written name = name := by
  have hq := @not_quoted [] name rfl h
  rw [List.nil_append] at hq
  rw [written, hq]
  rfl

theorem newHeader_plain (h : PlainName name) : ∃ tail : Line, (tail = [] ∨ tail = ['\t']) ∧
    newHeader (some name) = "+++ ".toList ++ ("b/".toList ++ name ++ tail) := by
  have hq : quoted (newSide ++ name) = false := not_quoted (by decide +kernel) fun c hc => (h.1 c hc).1
  have hw : written (newSide ++ name) = "b/".toList ++ name := by
    rw [written, hq]
    rfl
  rw [newHeader, label_some, hw]
  split
  · exact ⟨['\t'], .inr rfl, rfl⟩
  · exact ⟨[], .inl rfl, rfl⟩

theorem strip_plain {tail : Line} (h : name.rdropWhile isPythonSpace = name) (ht : tail = [] ∨ tail = ['\t']) :
    strip ("b/".toList ++ name ++ tail) = "b/".toList ++ name := by
  have hname : strip ("b/".toList ++ name) = "b/".toList ++ name := by
    have hcons := strip_append_cons (c := 'b') (d := '/') (by decide) (by decide) [] name
    rw [h] at hcons
    exact hcons
  rcases ht with rfl | rfl
  · rw [List.append_nil, hname]
  · rw [strip_space_right (by decide), hname]

theorem isHeader_newHeader (name : Option Line) : isHeader (newHeader name) = true := by
  rw [isHeader, newHeader, List.isPrefixOf_iff_prefix]
  exact List.prefix_append _ _

theorem drop_header (text : Line) : ("+++ ".toList ++ text).drop "+++ ".toList.length = text := List.drop_left

theorem diffTarget_plain (repository : PosixPath) (h : PlainName name) :
    diffTarget repository (newHeader (some name)) = some (under repository name) := by
  obtain ⟨tail, htail, hheader⟩ := newHeader_plain h
  have hne : "b/".toList ++ name ≠ "/dev/null".toList := by
    intro he
    have hhead : some 'b' = "/dev/null".toList.head? := congrArg List.head? he
    exact absurd hhead (by decide)
  rw [diffTarget, hheader, drop_header, strip_plain h.2 htail, if_neg hne,
    List.dropPrefix?_append_of_beq _ (beq_self_eq_true _)]
  rfl

theorem diffTarget_none (repository : PosixPath) : diffTarget repository (newHeader none) = none := by
  have hstrip : strip "/dev/null".toList = "/dev/null".toList := by decide +kernel
  rw [diffTarget, newHeader, drop_header, label_none, hstrip]
  exact if_pos rfl

theorem pieces_newHeader {name : Option Line} (h : ∀ n, name = some n → PlainName n) :
    pieces (newHeader name) = [newHeader name] := by
  refine pieces_of_pure ?_
  cases name with
  | none => decide
  | some name =>
    obtain ⟨tail, htail, hheader⟩ := newHeader_plain (h name rfl)
    have hlead : ∀ c ∈ "+++ ".toList ++ "b/".toList, isLineBreak c = false := by decide
    have htailPure : ∀ c ∈ tail, isLineBreak c = false := by rcases htail with rfl | rfl <;> decide
    rw [hheader, ← List.append_assoc, ← List.append_assoc]
    exact List.forall_mem_append.mpr ⟨List.forall_mem_append.mpr ⟨hlead, fun c hc => ((h name rfl).1 c hc).2⟩, htailPure⟩

/-! ## Collecting -/

def Has (lines : Numbers) (path : PosixPath) (n : Nat) : Prop := n ∈ (lines.get? path).getD []

theorem has_addNumbers (lines : Numbers) (path : PosixPath) (numbers : List Nat) (q : PosixPath) (n : Nat) :
    Has (addNumbers lines path numbers) q n ↔ Has lines q n ∨ (path = q ∧ n ∈ numbers) := by
  rw [Has, addNumbers, Dict.get?_set]
  split
  · rename_i heq
    rw [heq, Option.getD_some, List.mem_append, Has]
    simp
  · rename_i hne
    simp [Has, hne]

def InHunks (hs : List Hunk) (n : Nat) : Prop := ∃ h ∈ hs, h.newBefore < n ∧ n ≤ h.newBefore + h.added.length

theorem mem_marked (h : Hunk) (n : Nat) :
    n ∈ List.range' (marked h).1 (marked h).2 ↔ h.newBefore < n ∧ n ≤ h.newBefore + h.added.length := by
  rw [List.mem_range'_1, marked]
  by_cases hnil : h.added = []
  · simp only [hnil, if_true, List.length_nil]
    omega
  · simp only [hnil, if_false]
    omega

theorem span_pure (before count : Nat) : ∀ c ∈ span before count, isLineBreak c = false := by
  have hdigits : ∀ n, ∀ c ∈ Nat.toDigits 10 n, isLineBreak c = false := by
    intro n c hc
    have hdigit := Nat.isDigit_of_mem_toDigits (by decide) (by decide) hc
    rw [Char.isDigit, Bool.and_eq_true, decide_eq_true_eq, decide_eq_true_eq] at hdigit
    have hlow : 48 ≤ c.toNat := hdigit.1
    have hhigh : c.toNat ≤ 57 := hdigit.2
    simp only [isLineBreak, Bool.or_eq_false_iff, Bool.and_eq_false_iff, decide_eq_false_iff_not]
    omega
  rcases count with _ | _ | count
  · exact List.forall_mem_append.mpr ⟨hdigits before, by decide⟩
  · exact hdigits (before + 1)
  · exact List.forall_mem_append.mpr ⟨hdigits (before + 1), List.forall_mem_cons.mpr ⟨by decide, hdigits (count + 2)⟩⟩

theorem spans_pure (h : Hunk) : ∀ c ∈ h.spans, isLineBreak c = false := by
  have hlead : ∀ c ∈ "@@ -".toList, isLineBreak c = false := by decide
  have hplus : ∀ c ∈ " +".toList, isLineBreak c = false := by decide
  have hend : ∀ c ∈ " @@".toList, isLineBreak c = false := by decide
  simp only [Hunk.spans, List.forall_mem_append]
  exact ⟨⟨⟨⟨hlead, span_pure _ _⟩, hplus⟩, span_pure _ _⟩, hend⟩

theorem pieces_hunk (h : Hunk) : ∃ behind, (h.markLine :: h.body).flatMap pieces = (h.spans ++ behind) :: following h := by
  have hmark := pieces_append (spans_pure h) h.heading
  obtain ⟨behind, rest, hbehind⟩ := List.exists_cons_of_ne_nil (pieces_ne_nil h.heading)
  rw [hbehind] at hmark
  refine ⟨behind, ?_⟩
  rw [List.flatMap_cons, following, Hunk.markLine, hmark]
  rfl

section
variable {digit : Char → Option Nat} (repository : PosixPath)

variable {ps : List Line}

theorem foldl_silent (h : ∀ piece ∈ ps, Silent digit piece) (s : Option PosixPath × Numbers) :
    ps.foldl (collectLine digit repository) s = s := by
  induction ps with
  | nil => rfl
  | cons piece ps ih =>
    rw [List.forall_mem_cons] at h
    have hone : collectLine digit repository s piece = s := by
      rw [collectLine, h.1.1, h.1.2]
      rfl
    rw [List.foldl_cons, hone, ih h.2]

theorem foldl_unmarked (h : ∀ piece ∈ ps, hunkMark digit piece = none) (s : Option PosixPath × Numbers) :
    (ps.foldl (collectLine digit repository) s).2 = s.2 := by
  induction ps generalizing s with
  | nil => rfl
  | cons piece ps ih =>
    rw [List.forall_mem_cons] at h
    have hone : (collectLine digit repository s piece).2 = s.2 := by
      rw [collectLine, h.1]
      split <;> rfl
    rw [List.foldl_cons, ih h.2, hone]

theorem collect_mark (hd : Digits digit) (h : Hunk) (behind : Line) (s : Option PosixPath × Numbers) :
    (collectLine digit repository s (h.spans ++ behind)).1 = s.1 ∧
      ∀ path n, Has (collectLine digit repository s (h.spans ++ behind)).2 path n ↔
        Has s.2 path n ∨ (s.1 = some path ∧ h.newBefore < n ∧ n ≤ h.newBefore + h.added.length) := by
  have hheader : isHeader (h.spans ++ behind) = false := rfl
  obtain ⟨current, lines⟩ := s
  rw [collectLine, hheader, hunkMark_spans hd]
  cases current with
  | none => exact ⟨rfl, fun path n => by simp⟩
  | some current =>
    refine ⟨rfl, fun path n => ?_⟩
    rw [← mem_marked, Option.some.injEq]
    exact has_addNumbers lines current _ path n

theorem collect_hunks (hd : Digits digit) : ∀ {hs : List Hunk} {s : Option PosixPath × Numbers},
    (∀ h ∈ hs.dropLast, ∀ piece ∈ following h, Silent digit piece) →
    (∀ h ∈ hs.getLast?, ∀ piece ∈ following h, hunkMark digit piece = none) → ∀ path n,
    (Has (((hs.flatMap fun h => h.markLine :: h.body).flatMap pieces).foldl (collectLine digit repository) s).2 path n ↔
      Has s.2 path n ∨ (s.1 = some path ∧ InHunks hs n))
  | [], s, _, _, path, n => by simp [InHunks]
  | [h], s, _, hlast, path, n => by
    obtain ⟨behind, hpieces⟩ := pieces_hunk h
    obtain ⟨-, hhas⟩ := collect_mark repository hd h behind s
    rw [List.flatMap_singleton, hpieces, List.foldl_cons, foldl_unmarked repository (hlast h rfl), hhas]
    simp [InHunks]
  | h :: h' :: hs, s, hsilent, hlast, path, n => by
    rw [List.dropLast_cons_cons, List.forall_mem_cons] at hsilent
    rw [List.getLast?_cons_cons] at hlast
    obtain ⟨behind, hpieces⟩ := pieces_hunk h
    obtain ⟨hcurrent, hhas⟩ := collect_mark repository hd h behind s
    rw [List.flatMap_cons, List.flatMap_append, hpieces, List.foldl_append, List.foldl_cons,
      foldl_silent repository hsilent.1, collect_hunks hd hsilent.2 hlast, hhas, hcurrent, or_assoc, ← and_or_left]
    simp [InHunks]

def FromFile (f : FileDiff) (path : PosixPath) (n : Nat) : Prop :=
  ∃ name, f.newName = some name ∧ path = under repository name ∧ InHunks f.hunks n

theorem collect_file (hd : Digits digit) {f : FileDiff} (hf : Heard digit f) (s : Option PosixPath × Numbers)
    (path : PosixPath) (n : Nat) :
    Has ((f.lines.flatMap pieces).foldl (collectLine digit repository) s).2 path n ↔
      Has s.2 path n ∨ FromFile repository f path n := by
  rw [FileDiff.lines, List.flatMap_append, List.flatMap_append, List.foldl_append, List.foldl_append,
    foldl_silent repository hf.extended, FileDiff.headers]
  by_cases hnil : f.hunks = []
  · simp [hnil, FromFile, InHunks]
  have hnew := pieces_newHeader (hf.new hnil)
  rw [if_neg hnil, List.flatMap_cons, List.flatMap_singleton, List.foldl_append, foldl_silent repository (hf.old hnil),
    hnew, List.foldl_cons, List.foldl_nil, collect_hunks repository hd hf.hunks hf.last, collectLine,
    isHeader_newHeader, if_pos rfl]
  cases hname : f.newName with
  | none => simp [diffTarget_none, FromFile, hname]
  | some name =>
    rw [diffTarget_plain repository (hf.new hnil name hname), FromFile, hname]
    simp [eq_comm]

theorem collect_files (hd : Digits digit) : ∀ {files : List FileDiff} {s : Option PosixPath × Numbers},
    (∀ f ∈ files, Heard digit f) → ∀ path n,
    (Has (((files.flatMap FileDiff.lines).flatMap pieces).foldl (collectLine digit repository) s).2 path n ↔
      Has s.2 path n ∨ ∃ f ∈ files, FromFile repository f path n)
  | [], s, _, path, n => by simp
  | f :: files, s, h, path, n => by
    rw [List.forall_mem_cons] at h
    rw [List.flatMap_cons, List.flatMap_append, List.foldl_append, collect_files hd h.2, collect_file repository hd h.1,
      or_assoc]
    simp

theorem collect_untracked {file : PosixPath → Option (List Char)} {names : List Line}
    (h : ∀ name ∈ names, PlainName name ∧ strip name = name) (lines : Numbers) (path : PosixPath) (n : Nat) :
    Has ((readLines (namesText names)).foldl (collectUntracked repository file) lines) path n ↔ Has lines path n ∨
      ∃ name ∈ names, path = under repository name ∧ ∃ text, file path = some text ∧ 1 ≤ n ∧ n ≤ (linesOf text).length := by
  rw [namesText, readLines_unlines]
  induction names generalizing lines with
  | nil => simp
  | cons name names ih =>
    rw [List.forall_mem_cons] at h
    obtain ⟨hplain, hstrip⟩ := h.1
    have hpieces : pieces (written name) = [name] := by
      rw [written_of_plain fun c hc => (hplain.1 c hc).1]
      exact pieces_of_pure fun c hc => (hplain.1 c hc).2
    have hone : Has (collectUntracked repository file lines name) path n ↔ Has lines path n ∨
        (path = under repository name ∧ ∃ text, file path = some text ∧ 1 ≤ n ∧ n ≤ (linesOf text).length) := by
      rw [collectUntracked, hstrip]
      cases hfile : file (joinPath repository (String.ofList name)) with
      | none =>
        simp only [under]
        refine (or_iff_left ?_).symm
        rintro ⟨rfl, text, htext, -⟩
        rw [hfile] at htext
        cases htext
      | some text =>
        simp only [has_addNumbers, under]
        refine or_congr Iff.rfl ⟨?_, ?_⟩
        · rintro ⟨rfl, hmem⟩
          rw [List.mem_range'_1] at hmem
          exact ⟨rfl, text, hfile, hmem.1, by rw [linesOf]; rw [readLines] at hmem; omega⟩
        rintro ⟨rfl, text', htext', hlow, hhigh⟩
        rw [hfile, Option.some.injEq] at htext'
        subst htext'
        refine ⟨rfl, List.mem_range'_1.mpr ⟨hlow, ?_⟩⟩
        rw [linesOf] at hhigh
        rw [readLines]
        omega
    rw [List.map_cons, List.flatMap_cons, hpieces, List.foldl_append, List.foldl_cons, List.foldl_nil, ih h.2, hone,
      or_assoc]
    simp

end

/-! ## Counting by size

A flagged entry of a list has the numbers that its size gives it. These are the
numbers that its place gives it when each entry up to it has size one, and only
then. -/

section
variable {α : Type} (size : α → Nat)

def total (l : List (α × Bool)) : Nat := (l.map fun e => size e.1).sum

def BySize (l : List (α × Bool)) (n : Nat) : Prop :=
  ∃ before x after, l = before ++ (x, true) :: after ∧ total size before < n ∧ n ≤ total size before + size x

def ByPlace (l : List (α × Bool)) (n : Nat) : Prop :=
  ∃ before x after, l = before ++ (x, true) :: after ∧ n = before.length + 1

def OneEach (l : List (α × Bool)) : Prop :=
  ∀ before x after, l = before ++ (x, true) :: after → ∀ y ∈ before.map Prod.fst ++ [x], size y = 1

variable {size}

variable {l : List (α × Bool)}

theorem total_of_ones (h : ∀ y ∈ l.map Prod.fst, size y = 1) : total size l = l.length := by
  induction l with
  | nil => rfl
  | cons e l ih =>
    rw [List.map_cons, List.forall_mem_cons] at h
    have hl := ih h.2
    rw [total] at hl
    rw [total, List.map_cons, List.sum_cons, h.1, hl, List.length_cons, Nat.add_comm]

theorem length_le_total (h : ∀ e ∈ l, 1 ≤ size e.1) : l.length ≤ total size l := by
  induction l with
  | nil => exact Nat.le_refl 0
  | cons e l ih =>
    rw [List.forall_mem_cons] at h
    have hl := ih h.2
    rw [total] at hl
    rw [total, List.map_cons, List.sum_cons, List.length_cons]
    omega

theorem ones_of_total (h : ∀ e ∈ l, 1 ≤ size e.1) (hsum : total size l ≤ l.length) :
    ∀ y ∈ l.map Prod.fst, size y = 1 := by
  induction l with
  | nil => simp
  | cons e l ih =>
    rw [List.forall_mem_cons] at h
    have hl := length_le_total h.2
    rw [total, List.map_cons, List.sum_cons, List.length_cons] at hsum
    rw [total] at hl
    rw [List.map_cons, List.forall_mem_cons]
    exact ⟨by omega, ih h.2 (by rw [total]; omega)⟩

theorem OneEach.numbers (h : OneEach size l) (n : Nat) : BySize size l n ↔ ByPlace l n := by
  have hplace : ∀ before x after, l = before ++ (x, true) :: after → total size before = before.length ∧ size x = 1 := by
    intro before x after hl
    have hone := h before x after hl
    exact ⟨total_of_ones fun y hy => hone y (List.mem_append_left _ hy), hone x (by simp)⟩
  constructor
  · rintro ⟨before, x, after, hl, hlow, hhigh⟩
    obtain ⟨htotal, hsize⟩ := hplace before x after hl
    exact ⟨before, x, after, hl, by omega⟩
  rintro ⟨before, x, after, hl, hn⟩
  obtain ⟨htotal, hsize⟩ := hplace before x after hl
  exact ⟨before, x, after, hl, by omega, by omega⟩

theorem total_concat (before : List (α × Bool)) (x : α) :
    total size (before ++ [(x, true)]) = total size before + size x := by
  rw [total, List.map_append, List.sum_append]
  rfl

/-- The greatest number of a flagged entry is a place: its own, so that everything up to it has size one, or that of a
flagged entry further on, which has everything up to it of size one as well. -/
theorem ones_upto (hpos : ∀ e ∈ l, 1 ≤ size e.1) (h : ∀ n, BySize size l n → ByPlace l n) (before : List (α × Bool))
    (x : α) (after : List (α × Bool)) (hl : l = before ++ (x, true) :: after) :
    ∀ y ∈ (before ++ [(x, true)]).map Prod.fst, size y = 1 := by
  have hpre : ∀ e ∈ before ++ [(x, true)], 1 ≤ size e.1 := by
    intro e he
    refine hpos e ?_
    rw [hl, List.append_cons]
    exact List.mem_append_left _ he
  have hx : 1 ≤ size x := hpre (x, true) (by simp)
  have hle := length_le_total hpre
  rw [total_concat] at hle
  obtain ⟨before', x', after', hl', hn⟩ := h (total size before + size x) ⟨before, x, after, hl, by omega, by omega⟩
  rcases Nat.lt_or_ge before.length before'.length with hlt | hge
  · have hshort : after'.length < after.length := by
      have hlen := congrArg List.length (hl.symm.trans hl')
      simp only [List.length_append, List.length_cons] at hlen
      omega
    have hleft : before ++ [(x, true)] <+: before' := by
      refine @List.prefix_of_prefix_length_le _ _ _ l ⟨after, ?_⟩ ⟨(x', true) :: after', hl'.symm⟩ ?_
      · rw [List.append_assoc, List.singleton_append, hl]
      · rw [List.length_append, List.length_singleton]
        exact hlt
    intro y hy
    refine ones_upto hpos h before' x' after' hl' y ?_
    rw [List.map_append]
    exact List.mem_append_left _ ((hleft.map Prod.fst).subset hy)
  · refine ones_of_total hpre ?_
    rw [total_concat, List.length_append, List.length_singleton]
    omega
termination_by after.length

theorem OneEach.of_numbers (hpos : ∀ e ∈ l, 1 ≤ size e.1) (h : ∀ n, BySize size l n → ByPlace l n) :
    OneEach size l := by
  intro before x after hl y hy
  refine ones_upto hpos h before x after hl y ?_
  rwa [List.map_append]

end

/-! ## Lines of a file -/

theorem byPlace_iff {α : Type} {l : List (α × Bool)} :
    ByPlace l n ↔ ∃ i, (l.map Prod.snd)[i]? = some true ∧ n = i + 1 := by
  constructor
  · rintro ⟨before, x, after, rfl, hn⟩
    exact ⟨before.length, by simp, hn⟩
  rintro ⟨i, hi, hn⟩
  rw [List.getElem?_map, Option.map_eq_some_iff] at hi
  obtain ⟨⟨x, added⟩, hx, rfl⟩ := hi
  obtain ⟨hlt, hget⟩ := List.getElem?_eq_some_iff.mp hx
  refine ⟨l.take i, x, l.drop (i + 1), ?_, ?_⟩
  · rw [← hget, List.getElem_cons_drop, List.take_append_drop]
  · rw [hn, List.length_take, Nat.min_eq_left (Nat.le_of_lt hlt)]

theorem inHunks_hunksFrom (oldOpen newOpen : Bool) (n : Nat) : ∀ (segments : List Segment) (oldBefore newBefore : Nat),
    InHunks (hunksFrom oldOpen newOpen oldBefore newBefore segments) n ↔
      ∃ i, ((segments.flatMap Segment.flagged).map Prod.snd)[i]? = some true ∧ n = newBefore + i + 1
  | [], _, _ => by simp [hunksFrom, InHunks]
  | .keep lines :: rest, oldBefore, newBefore => by
    rw [hunksFrom, inHunks_hunksFrom oldOpen newOpen n rest, List.flatMap_cons, List.map_append]
    have hlen : ((Segment.keep lines).flagged.map Prod.snd).length = lines.length := by simp [Segment.flagged]
    constructor
    · rintro ⟨i, hi, rfl⟩
      refine ⟨lines.length + i, ?_, by omega⟩
      rw [List.getElem?_append_right (by omega), hlen, Nat.add_sub_cancel_left]
      exact hi
    rintro ⟨i, hi, rfl⟩
    rcases Nat.lt_or_ge i lines.length with hlt | hge
    · rw [List.getElem?_append_left (by omega)] at hi
      simp [Segment.flagged, List.getElem?_eq_getElem hlt] at hi
    · rw [List.getElem?_append_right (by omega), hlen] at hi
      exact ⟨i - lines.length, hi, by omega⟩
  | .change heading removed added :: rest, oldBefore, newBefore => by
    have hlen : ((Segment.change heading removed added).flagged.map Prod.snd).length = added.length := by
      simp [Segment.flagged]
    have hrest := inHunks_hunksFrom oldOpen newOpen n rest (oldBefore + removed.length) (newBefore + added.length)
    have hsplit : InHunks (hunksFrom oldOpen newOpen oldBefore newBefore (.change heading removed added :: rest)) n ↔
        (newBefore < n ∧ n ≤ newBefore + added.length) ∨
          InHunks (hunksFrom oldOpen newOpen (oldBefore + removed.length) (newBefore + added.length) rest) n := by
      simp [hunksFrom, InHunks]
    rw [hsplit, hrest, List.flatMap_cons, List.map_append]
    constructor
    · rintro (⟨hlow, hhigh⟩ | ⟨i, hi, rfl⟩)
      · refine ⟨n - newBefore - 1, ?_, by omega⟩
        rw [List.getElem?_append_left (by omega)]
        have hlt : n - newBefore - 1 < added.length := by omega
        simp [Segment.flagged, List.getElem?_eq_getElem hlt]
      refine ⟨added.length + i, ?_, by omega⟩
      rw [List.getElem?_append_right (by omega), hlen, Nat.add_sub_cancel_left]
      exact hi
    rintro ⟨i, hi, rfl⟩
    rcases Nat.lt_or_ge i added.length with hlt | hge
    · exact .inl ⟨by omega, by omega⟩
    · rw [List.getElem?_append_right (by omega), hlen] at hi
      exact .inr ⟨i - added.length, hi, by omega⟩

theorem snd_ended (isOpen : Bool) : ∀ l : List (Line × Bool), (FileDiff.ended isOpen l).map Prod.snd = l.map Prod.snd
  | [] => rfl
  | [_] => rfl
  | (line, added) :: next :: rest => by
    rw [FileDiff.ended, List.map_cons, List.map_cons, snd_ended isOpen (next :: rest)]

theorem inHunks_iff (f : FileDiff) (n : Nat) : InHunks f.hunks n ↔ ByPlace f.newText n := by
  rw [FileDiff.hunks, inHunks_hunksFrom, byPlace_iff, FileDiff.newText, snd_ended, FileDiff.flagged]
  simp only [Nat.zero_add]

theorem ends_ended (isOpen : Bool) : ∀ {l before rest : List (Line × Bool)}, FileDiff.ended isOpen l = before ++ rest →
    rest ≠ [] → ∀ e ∈ before, ∃ line, e.1 = line ++ ['\n']
  | _, [], _, _, _ => by simp
  | [], e :: before, rest, h, _ => by cases h
  | [x], e :: before, rest, h, hne => by
    rw [FileDiff.ended, List.cons_append, List.cons.injEq] at h
    exact absurd (List.append_eq_nil_iff.mp h.2.symm).2 hne
  | (line, added) :: next :: l, e :: before, rest, h, hne => by
    rw [FileDiff.ended, List.cons_append, List.cons.injEq] at h
    rw [List.forall_mem_cons]
    exact ⟨⟨line, h.1 ▸ rfl⟩, ends_ended isOpen h.2 hne⟩

theorem linesOf_flatten {ts : List Line} (h : ∀ t ∈ ts, ∃ line, t = line ++ ['\n']) (text : Line) :
    linesOf (ts.flatten ++ text) = ts.flatMap linesOf ++ linesOf text := by
  induction ts with
  | nil => rfl
  | cons t ts ih =>
    rw [List.forall_mem_cons] at h
    obtain ⟨line, rfl⟩ := h.1
    have hread := readLines_append line (ts.flatten ++ text)
    rw [List.flatten_cons, List.flatMap_cons, List.append_assoc, List.append_assoc, List.singleton_append, List.append_assoc,
      ← ih h.2]
    exact hread

def lineCount (text : Line) : Nat := (linesOf text).length

theorem addedIn_iff (f : FileDiff) (n : Nat) : AddedIn f n ↔ BySize lineCount f.newText n := by
  have hcount : ∀ before text after, f.newText = before ++ (text, true) :: after →
      (linesOf (before.map Prod.fst).flatten).length = total lineCount before ∧
        (linesOf ((before.map Prod.fst).flatten ++ text)).length = total lineCount before + lineCount text := by
    intro before text after hf
    have hends := ends_ended f.newOpen hf (List.cons_ne_nil _ _)
    have hall := @linesOf_flatten (before.map Prod.fst) (List.forall_mem_map.mpr hends)
    have htotal : ((before.map Prod.fst).flatMap linesOf).length = total lineCount before := by
      rw [List.length_flatMap, List.map_map]
      rfl
    have hnil := hall []
    rw [List.append_nil] at hnil
    exact ⟨by rw [hnil, List.length_append, htotal]; rfl, by rw [hall text, List.length_append, htotal]; rfl⟩
  constructor
  · rintro ⟨before, text, after, hf, hlow, hhigh⟩
    obtain ⟨h₁, h₂⟩ := hcount before text after hf
    exact ⟨before, text, after, hf, h₁ ▸ hlow, h₂ ▸ hhigh⟩
  rintro ⟨before, text, after, hf, hlow, hhigh⟩
  obtain ⟨h₁, h₂⟩ := hcount before text after hf
  exact ⟨before, text, after, hf, h₁.symm ▸ hlow, h₂.symm ▸ hhigh⟩

theorem crlf_ne_nil : ∀ {cs : List Char}, cs ≠ [] → crlf cs ≠ []
  | [], h => absurd rfl h
  | [c], _ => by simp [crlf]
  | c :: d :: cs, _ => by
    rw [crlf]
    split
    · exact crlf_ne_nil (List.cons_ne_nil d cs)
    · exact List.cons_ne_nil _ _

theorem lineCount_pos {text : Line} (h : text ≠ []) : 1 ≤ lineCount text := by
  have hlines : linesOf text ≠ [] := by
    intro hnil
    have huniversal : universal text = [] := by
      refine eq_nil_of_breakLines (p := isLineBreak) ?_
      rw [← readLines_eq]
      exact hnil
    exact crlf_ne_nil h (List.map_eq_nil_iff.mp huniversal)
  exact List.length_pos_iff.mpr hlines

theorem ne_nil_ended {isOpen : Bool} : ∀ {l : List (Line × Bool)}, (isOpen = true → (l.map Prod.fst).getLast? ≠ some []) →
    ∀ e ∈ FileDiff.ended isOpen l, e.1 ≠ []
  | [], _ => by simp [FileDiff.ended]
  | [(line, added)], h => by
    rw [FileDiff.ended, List.forall_mem_singleton]
    split
    · rename_i hopen
      intro hnil
      exact h hopen (congrArg some hnil)
    · simp
  | (line, added) :: next :: l, h => by
    rw [FileDiff.ended, List.forall_mem_cons]
    exact ⟨by simp, ne_nil_ended fun hopen => by simpa using h hopen⟩

theorem lineCount_newText (f : FileDiff) : ∀ e ∈ f.newText, 1 ≤ lineCount e.1 := by
  have hfst : f.flagged.map Prod.fst = f.segments.flatMap Segment.new := by
    rw [FileDiff.flagged, List.map_flatMap]
    refine List.flatMap_congr fun s _ => ?_
    cases s <;> simp [Segment.flagged, Segment.new, Function.comp_def]
  intro e he
  refine lineCount_pos (ne_nil_ended (fun hopen => ?_) e he)
  rw [hfst]
  exact f.newLast hopen

theorem Counted.addedIn (h : Counted f) (n : Nat) : AddedIn f n ↔ InHunks f.hunks n := by
  rw [addedIn_iff, inHunks_iff]
  exact OneEach.numbers h n

theorem Counted.of_addedIn (h : ∀ n, AddedIn f n → InHunks f.hunks n) : Counted f :=
  @OneEach.of_numbers Line lineCount f.newText (lineCount_newText f) fun n hn =>
    (inHunks_iff f n).mp (h n ((addedIn_iff f n).mpr hn))

theorem Counted.of_all (h : ∀ e ∈ f.newText, (linesOf e.1).length = 1) : Counted f := by
  intro before text after hf t ht
  rw [hf, List.append_cons] at h
  have hmem : t ∈ (before ++ [(text, true)]).map Prod.fst := by rwa [List.map_append]
  obtain ⟨e, he, rfl⟩ := List.mem_map.mp hmem
  exact h e (List.mem_append_left _ he)

section
variable {digit : Char → Option Nat} {git : Git} {file : PosixPath → Option (List Char)} {repository : PosixPath}
  {files : List FileDiff} {others : List Line}

/-- Everything in what git writes is read as it is meant. -/
structure Legible (digit : Char → Option Nat) (files : List FileDiff) (others : List Line) : Prop where
  files : ∀ f ∈ files, Heard digit f
  others : ∀ name ∈ others, PlainName name ∧ strip name = name

theorem covers_iff (hd : Digits digit) (hgit : Asked git repository files others) (h : Legible digit files others)
    (path : PosixPath) (n : Nat) : (changedLines digit git file).covers path n = true ↔
      (∃ f ∈ files, FromFile repository f path n) ∨ ∃ name ∈ others, path = under repository name ∧
        ∃ text, file path = some text ∧ 1 ≤ n ∧ n ≤ (linesOf text).length := by
  have hdiff : collectDiffLines digit repository git.diff Dict.empty =
      (((files.flatMap FileDiff.lines).flatMap pieces).foldl (collectLine digit repository) (none, Dict.empty)).2 := by
    rw [hgit.diff, collectDiffLines, diffText, readLines_unlines]
  rw [changedLines, hgit.root, ChangedLines.covers]
  dsimp only
  rw [if_pos rfl, decide_eq_true_iff, hgit.others, collectUntrackedLines, hdiff]
  refine (collect_untracked repository h.others _ path n).trans (or_congr ?_ Iff.rfl)
  rw [collect_files repository hd h.files]
  simp [Has]

/-- Where git's text is read as it is meant, the scope is exact when each line up to an added one is one line for the
checks, and only then. -/
theorem scope_exact (hd : Digits digit) (hgit : Asked git repository files others) (h : Legible digit files others) :
    ((∀ f ∈ files, f.newName.isSome → Counted f) → Exact digit git file repository files others) ∧
      (Distinct repository files others → Exact digit git file repository files others →
        ∀ f ∈ files, f.newName.isSome → Counted f) := by
  constructor
  · intro hcounted path n
    rw [covers_iff hd hgit h, InScope]
    refine or_congr ?_ Iff.rfl
    refine exists_congr fun f => and_congr_right fun hf => exists_congr fun name => and_congr_right fun hname => ?_
    rw [(hcounted f hf (by rw [hname]; rfl)).addedIn]
  intro hdistinct hexact f hf hnamed
  obtain ⟨name, hname⟩ := Option.isSome_iff_exists.mp hnamed
  refine Counted.of_addedIn fun n hn => ?_
  have hscope := (hexact (under repository name) n).mpr (.inl ⟨f, hf, name, hname, rfl, hn⟩)
  rcases (covers_iff hd hgit h _ n).mp hscope with ⟨g, hg, name', hname', heq, hin⟩ | ⟨name', hname', heq, -⟩
  · rwa [hdistinct.named f hf g hg name name' hname hname' heq]
  · exact absurd heq (hdistinct.unseen f hf name hname name' hname')

theorem not_exact {path : PosixPath} {n : Nat} (h : InScope repository file files others path n)
    (hcovers : (changedLines digit git file).covers path n = false) : ¬ Exact digit git file repository files others := by
  intro hexact
  have htrue := (hexact path n).mpr h
  rw [hcovers] at htrue
  cases htrue

end

/-! ## Runs -/

def asciiDigit (c : Char) : Option Nat := if 48 ≤ c.toNat ∧ c.toNat ≤ 57 then some (c.toNat - 48) else none

theorem asciiDigits : Digits asciiDigit := ⟨by decide, rfl, rfl⟩

def memoryRoot : PosixPath := PosixPath.ofText "/m"

def gitOf (files : List FileDiff) (others : List Line) : Git :=
  ⟨some "/m\n".toList, true, some (diffText files), some (namesText others)⟩

theorem asked_gitOf (files : List FileDiff) (others : List Line) : Asked (gitOf files others) memoryRoot files others := by
  have hstrip : strip (universal "/m\n".toList) = "/m".toList := by decide +kernel
  have hroot : repositoryRoot (gitOf files others) = some memoryRoot := by
    simp only [repositoryRoot, gitOf, hstrip, String.ofList_toList]
    exact if_neg (by decide)
  exact ⟨hroot, rfl, rfl⟩

def edited (name : Line) (segments : List Segment) : FileDiff where
  extended := ["diff --git a/a.md b/a.md".toList, "index 78981922..61780798 100644".toList]
  oldName := some name
  newName := some name
  segments := segments
  newLast := fun h => by cases h

/-- Two edited lines around one that is kept. -/
def plainEdit : FileDiff :=
  edited "a.md".toList [.change [] ["a".toList] ["x".toList], .keep ["b".toList], .change [] [] ["c".toList]]

instance (digit : Char → Option Nat) : DecidablePred (Silent digit) := fun _ => inferInstanceAs (Decidable (_ ∧ _))

instance : DecidablePred PlainName := fun _ => inferInstanceAs (Decidable (_ ∧ _))

theorem heard_plainEdit : Heard asciiDigit plainEdit where
  extended := by decide +kernel
  old := fun _ => by decide +kernel
  new := fun _ name hname => by
    obtain rfl := Option.some.inj hname
    decide +kernel
  hunks := by decide +kernel
  last := by decide +kernel

/-- The two lines of the file, and those of a file that git has never seen. -/
theorem scope_exact_plainEdit :
    Exact asciiDigit (gitOf [plainEdit] ["n.md".toList]) (fun _ => some "one\ntwo\n".toList) memoryRoot [plainEdit]
      ["n.md".toList] ∧ Counted plainEdit := by
  have hcounted : ∀ f ∈ [plainEdit], f.newName.isSome → Counted f := by
    intro f hf _
    rw [List.mem_singleton.mp hf]
    exact Counted.of_all (by decide +kernel)
  have hlegible : Legible asciiDigit [plainEdit] ["n.md".toList] := by
    refine ⟨fun f hf => ?_, by decide +kernel⟩
    rw [List.mem_singleton.mp hf]
    exact heard_plainEdit
  have hdistinct : Distinct memoryRoot [plainEdit] ["n.md".toList] := by
    refine ⟨fun f hf g hg _ _ _ _ _ => ?_, fun f hf name hname name' hname' => ?_⟩
    · rw [List.mem_singleton.mp hf, List.mem_singleton.mp hg]
    rw [List.mem_singleton.mp hf] at hname
    obtain rfl := Option.some.inj hname
    rw [List.mem_singleton.mp hname']
    decide +kernel
  have hscope := @scope_exact asciiDigit _ (fun _ => some "one\ntwo\n".toList) _ _ _ asciiDigits (asked_gitOf _ _) hlegible
  exact ⟨hscope.1 hcounted, hscope.2 hdistinct (hscope.1 hcounted) plainEdit (by simp) rfl⟩

/-- An added line that begins as a header does. -/
def headerLike : FileDiff :=
  edited "a.md".toList
    [.change [] ["a".toList] ["++ b/o.md".toList], .keep ["b".toList], .change [] ["c".toList] ["d".toList]]

/-- A form feed in a line that is kept. -/
def formFeed : FileDiff := edited "a.md".toList [.keep ["a\x0cb".toList], .change [] ["c".toList] ["d".toList]]

/-- A name with a quote. -/
def quotedName : FileDiff := edited ['a', doubleQuote] [.change [] ["a".toList] ["b".toList]]

/-- The second change is put into another file; the changed line has the number after the covered one; the file is not
found under its name. -/
theorem scope_misread :
    ¬ Exact asciiDigit (gitOf [headerLike] []) (fun _ => none) memoryRoot [headerLike] [] ∧
      ¬ Exact asciiDigit (gitOf [formFeed] []) (fun _ => none) memoryRoot [formFeed] [] ∧
      ¬ Exact asciiDigit (gitOf [quotedName] []) (fun _ => none) memoryRoot [quotedName] [] := by
  have hheader : AddedIn headerLike 3 :=
    ⟨[("++ b/o.md\n".toList, true), ("b\n".toList, false)], "d\n".toList, [], by decide +kernel, by decide +kernel,
      by decide +kernel⟩
  have hfeed : AddedIn formFeed 3 :=
    ⟨[("a\x0cb\n".toList, false)], "d\n".toList, [], by decide +kernel, by decide +kernel, by decide +kernel⟩
  have hquoted : AddedIn quotedName 1 := ⟨[], "b\n".toList, [], by decide +kernel, by decide +kernel, by decide +kernel⟩
  refine ⟨?_, ?_, ?_⟩
  · exact not_exact (.inl ⟨headerLike, by simp, _, rfl, rfl, hheader⟩) (by decide +kernel)
  · exact not_exact (.inl ⟨formFeed, by simp, _, rfl, rfl, hfeed⟩) (by decide +kernel)
  · exact not_exact (.inl ⟨quotedName, by simp, _, rfl, rfl, hquoted⟩) (by decide +kernel)

end AgentsRemember.Changed
