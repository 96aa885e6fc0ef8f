import AgentsRemember.Citations.SearchSound

/-!
# The codecs of the index

The streams of a file are made of its lines or of a run of its comment lines.
What the index stores of them is read back, and a search in them answers with
places in the source.
-/

namespace AgentsRemember.Citations

open Lib Lib.Lines Lib.Packing Lib.Tokens Lib.Words

def sourceText (lines : FileLines) : List Char := ['\n'].intercalate lines

/-- The bytes of the lines, each with a line feed. -/
def sourceSize (lines : FileLines) : Nat := lineStart lines lines.length

/-- The character stands at its byte in the source, in its line. -/
structure Stands (lines : FileLines) (cell : Cell) : Prop where
  source : ∃ before behind, sourceText lines = before ++ cell.char :: behind ∧ (Utf8.encode before).length = cell.byte
  line : ∃ i l, lines[i]? = some l ∧ cell.line = i + 1 ∧ lineStart lines i ≤ cell.byte ∧
    cell.byte < lineStart lines i + (Utf8.encode l).length

/-- A stream has the words of all lines, or of what stands behind the marks of comment lines that follow each other. -/
inductive StreamRows (lines : FileLines) : List Row → CollapsedText → Prop
  | whole : StreamRows lines (lines.zipIdx.map (lineRow lines)) (collapsed lines)
  | block (before behind : List (Option Row)) (rows : List Row)
      (h : lines.zipIdx.map (commentRow lines) = before ++ rows.map some ++ behind) :
      StreamRows lines rows (collapse (rows.flatMap rowWords))

/-- `quote_matches_in`, with no value for a search that fails. -/
def quoteMatchesIn? (quote : List Char) (stream : CollapsedText) : Option (List QuoteMatch) :=
  let target := normalised quote
  if target = [] then some []
  else (placesOf target 0 stream.text).mapM fun start => quoteMatchAt stream.marks start (start + target.length)

/-- The search answers with one match for each place of the quote in the stream, the match of the place. -/
structure Found (cells : List Cell) (stream : CollapsedText) (quote : List Char) (found : List QuoteMatch) : Prop where
  searched : quoteMatchesIn? quote stream = some found ∧ quoteMatchesIn quote stream = found
  empty : normalised quote = [] → found = []
  matched : normalised quote ≠ [] → ∃ places : List Nat, places.Pairwise (· < ·) ∧
    (∀ pre post, stream.text = pre ++ normalised quote ++ post → pre.length ∈ places) ∧
    List.Forall₂ (fun place m => ∃ pre post, stream.text = pre ++ normalised quote ++ post ∧ place = pre.length ∧
      MatchOf cells pre (normalised quote) m) places found

/-! ## Places -/

theorem placesOf_ge {target : List Char} {cs : List Char} {at_ place : Nat} (h : place ∈ placesOf target at_ cs) :
    at_ ≤ place := by
  obtain ⟨pre, post, -, rfl⟩ := mem_placesOf h
  exact Nat.le_add_right _ _

theorem placesOf_sorted (target : List Char) : ∀ (at_ : Nat) (cs : List Char), (placesOf target at_ cs).Pairwise (· < ·)
  | _, [] => .nil
  | at_, c :: cs => by
    rw [placesOf]
    split
    · exact List.pairwise_cons.mpr ⟨fun place h => placesOf_ge h, placesOf_sorted target (at_ + 1) cs⟩
    · exact placesOf_sorted target (at_ + 1) cs

theorem mem_placesOf_of {target : List Char} (hne : target ≠ []) {post : List Char} : ∀ {pre : List Char} {at_ : Nat},
    at_ + pre.length ∈ placesOf target at_ (pre ++ target ++ post)
  | [], at_ => by
    obtain ⟨c, cs, rfl⟩ := List.exists_cons_of_ne_nil hne
    have hprefix : (c :: cs).isPrefixOf (c :: (cs ++ post)) = true :=
      List.isPrefixOf_iff_prefix.mpr (List.prefix_append (c :: cs) post)
    rw [List.nil_append, List.cons_append, placesOf, if_pos hprefix]
    exact List.mem_cons_self
  | c :: pre, at_ => by
    have hrest := @mem_placesOf_of _ hne post pre (at_ + 1)
    have hplace : at_ + (c :: pre).length = at_ + 1 + pre.length := by
      rw [List.length_cons]
      omega
    rw [List.cons_append, List.cons_append, placesOf, hplace]
    split
    · exact List.mem_cons_of_mem _ hrest
    · exact hrest

variable {α β : Type} {rows : List Row} {lines : FileLines} {l : List Char × Nat} {row : Row} {stream : CollapsedText}
  {i : Nat}

theorem mapM_forall₂ {f : α → Option β} {p : α → β → Prop} : ∀ {xs : List α},
    (∀ x ∈ xs, ∃ y, f x = some y ∧ p x y) → ∃ ys, xs.mapM f = some ys ∧ xs.filterMap f = ys ∧ List.Forall₂ p xs ys
  | [], _ => ⟨[], rfl, rfl, .nil⟩
  | x :: xs, h => by
    obtain ⟨y, hy, hp⟩ := h x List.mem_cons_self
    obtain ⟨ys, hys, hfilter, hall⟩ := mapM_forall₂ fun x' hx' => h x' (List.mem_cons_of_mem x hx')
    refine ⟨y :: ys, ?_, ?_, .cons hp hall⟩
    · rw [List.mapM_cons, hy, hys]
      rfl
    · rw [List.filterMap_cons, hy, hfilter]

theorem rowWords_chars : ∀ w ∈ rows.flatMap rowWords, ∀ c ∈ w.text, isWordChar c = true := by
  intro w hw
  have hmem : w.text ∈ texts (rows.flatMap rowWords) := List.mem_map_of_mem hw
  rw [texts_flatMap] at hmem
  obtain ⟨row, -, hword⟩ := List.mem_flatMap.mp hmem
  exact (mem_words hword).2

theorem found_of_rows (rows : List Row) (quote : List Char) :
    ∃ found, Found (rows.flatMap rowCells) (collapse (rows.flatMap rowWords)) quote found := by
  by_cases hne : normalised quote = []
  · refine ⟨[], ⟨?_, ?_⟩, fun _ => rfl, fun h => absurd hne h⟩
    · rw [quoteMatchesIn?, if_pos hne]
    · rw [quoteMatchesIn, if_pos hne]
  obtain ⟨hfirst, hlast⟩ := normalised_ends hne
  have hone : ∀ place ∈ placesOf (normalised quote) 0 (collapse (rows.flatMap rowWords)).text,
      ∃ m, quoteMatchAt (collapse (rows.flatMap rowWords)).marks place (place + (normalised quote).length) = some m ∧
        ∃ pre post, (collapse (rows.flatMap rowWords)).text = pre ++ normalised quote ++ post ∧ place = pre.length ∧
          MatchOf (rows.flatMap rowCells) pre (normalised quote) m := by
    intro place hplace
    obtain ⟨pre, post, htext, rfl⟩ := mem_placesOf hplace
    obtain ⟨m, hm, hmatch⟩ := quoteMatchAt_of rowWords_chars hfirst hlast htext
    rw [words_cells] at hmatch
    rw [Nat.zero_add]
    exact ⟨m, hm, pre, post, htext, rfl, hmatch⟩
  obtain ⟨found, hmapM, hfilter, hall⟩ := mapM_forall₂ hone
  refine ⟨found, ⟨?_, ?_⟩, fun h => absurd h hne, fun _ => ⟨_, placesOf_sorted _ 0 _, ?_, hall⟩⟩
  · rw [quoteMatchesIn?, if_neg hne, hmapM]
  · rw [quoteMatchesIn, if_neg hne, hfilter]
  intro pre post htext
  have hmem := @mem_placesOf_of _ hne post pre 0
  rwa [Nat.zero_add, ← htext] at hmem

/-! ## Rows in the source -/

def RowOf (lines : FileLines) (row : Row) : Prop :=
  ∃ i l head, lines[i]? = some l ∧ row.line = i + 1 ∧ l = head ++ row.text ∧
    row.byte = lineStart lines i + (Utf8.encode head).length

theorem commentRest_suffix {line rest : List Char} (h : commentRest line = some rest) : rest <:+ line := by
  rw [commentRest] at h
  have hdrop := List.dropWhile_suffix isPythonSpace (l := line)
  split at h
  · rename_i c tail heq
    rw [heq] at hdrop
    obtain rfl := Option.some.inj h
    split
    · exact List.IsSuffix.trans ⟨['/', '/', c], rfl⟩ hdrop
    · exact List.IsSuffix.trans ⟨['/', '/'], rfl⟩ hdrop
  · obtain rfl := Option.some.inj h
    exact List.nil_suffix
  · cases h

theorem rowOf_lineRow (h : l ∈ lines.zipIdx) : RowOf lines (lineRow lines l) :=
  ⟨l.2, l.1, [], List.mem_zipIdx_iff_getElem?.mp h, rfl, rfl, rfl⟩

theorem rowOf_commentRow (h : l ∈ lines.zipIdx) (hrow : commentRow lines l = some row) : RowOf lines row := by
  obtain ⟨rest, hrest, rfl⟩ := Option.map_eq_some_iff.mp hrow
  obtain ⟨head, hhead⟩ := commentRest_suffix hrest
  refine ⟨l.2, l.1, head, List.mem_zipIdx_iff_getElem?.mp h, rfl, hhead.symm, ?_⟩
  have hcut : l.1.take (l.1.length - rest.length) = head := by
    rw [← hhead, List.length_append, Nat.add_sub_cancel, List.take_left]
  rw [hcut]

theorem StreamRows.rowOf (h : StreamRows lines rows stream) : ∀ row ∈ rows, RowOf lines row := by
  intro row hrow
  cases h with
  | whole =>
    obtain ⟨l, hl, rfl⟩ := List.mem_map.mp hrow
    exact rowOf_lineRow hl
  | block before behind _ heq =>
    have hmem : some row ∈ lines.zipIdx.map (commentRow lines) := by
      rw [heq]
      exact List.mem_append_left _ (List.mem_append_right _ (List.mem_map_of_mem hrow))
    obtain ⟨l, hl, heq⟩ := List.mem_map.mp hmem
    exact rowOf_commentRow hl heq

theorem StreamRows.eq_collapse (h : StreamRows lines rows stream) : stream = collapse (rows.flatMap rowWords) := by
  cases h <;> rfl

theorem lineStart_le {l : List Char} (h : lines[i]? = some l) :
    lineStart lines i + (Utf8.encode l).length + 1 ≤ sourceSize lines := by
  obtain ⟨hlt, rfl⟩ := List.getElem?_eq_some_iff.mp h
  have hsum : lineStart lines (i + 1) = lineStart lines i + ((Utf8.encode lines[i]).length + 1) := by
    rw [lineStart, lineStart, List.take_add_one, List.getElem?_eq_getElem hlt, List.map_append, List.sum_append]
    simp
  have hsub : lineStart lines (i + 1) ≤ sourceSize lines := by
    have hsplit := List.take_append_drop (i + 1) lines
    rw [sourceSize, lineStart, lineStart, List.take_length]
    conv_rhs => rw [← hsplit, List.map_append, List.sum_append]
    exact Nat.le_add_right _ _
  omega

theorem sourceText_split {l : List Char} (h : lines[i]? = some l) :
    ∃ before behind, sourceText lines = before ++ l ++ behind ∧ (Utf8.encode before).length = lineStart lines i := by
  induction lines generalizing i with
  | nil => cases h
  | cons x lines ih =>
    cases i with
    | zero =>
      obtain rfl := Option.some.inj h
      cases lines with
      | nil => exact ⟨[], [], by rw [sourceText, List.intercalate_singleton, List.append_nil]; rfl, rfl⟩
      | cons y lines =>
        refine ⟨[], '\n' :: sourceText (y :: lines), ?_, rfl⟩
        rw [sourceText, List.intercalate_cons_cons, List.append_assoc]
        rfl
    | succ i =>
      rw [List.getElem?_cons_succ] at h
      obtain ⟨before, behind, hsource, hlen⟩ := ih h
      cases lines with
      | nil => cases h
      | cons y lines =>
        refine ⟨x ++ '\n' :: before, behind, ?_, ?_⟩
        · rw [sourceText, List.intercalate_cons_cons]
          have htail : ['\n'].intercalate (y :: lines) = before ++ l ++ behind := hsource
          rw [htail]
          simp only [List.append_assoc, List.cons_append, List.nil_append]
        rw [Utf8.encode_append, List.length_append, encode_cons_length '\n' before, hlen, lineStart, lineStart,
          List.take_succ_cons, List.map_cons, List.sum_cons]
        have hone : (Utf8.encode ['\n']).length = 1 := by decide
        omega

theorem mem_textCells {line : Nat} : ∀ {byte : Nat} {cs : List Char} {cell : Cell}, cell ∈ textCells line byte cs →
    ∃ p q, cs = p ++ cell.char :: q ∧ cell.byte = byte + (Utf8.encode p).length ∧ cell.line = line
  | _, [], _, h => by cases h
  | byte, c :: cs, cell, h => by
    rcases List.mem_cons.mp h with rfl | h
    · exact ⟨[], cs, rfl, rfl, rfl⟩
    obtain ⟨p, q, rfl, hbyte, hline⟩ := mem_textCells h
    refine ⟨c :: p, q, rfl, ?_, hline⟩
    rw [hbyte, encode_cons_length c p, Nat.add_assoc]

theorem stands_of_row (h : RowOf lines row) {cell : Cell} (hcell : cell ∈ rowCells row) : Stands lines cell := by
  obtain ⟨i, l, head, hl, hline, rfl, hbyte⟩ := h
  obtain ⟨p, q, htext, hcbyte, hcline⟩ := mem_textCells (List.mem_filter.mp hcell).1
  obtain ⟨before, behind, hsource, hlen⟩ := sourceText_split hl
  constructor
  · refine ⟨before ++ head ++ p, q ++ behind, ?_, ?_⟩
    · rw [hsource, htext]
      simp only [List.append_assoc, List.cons_append]
    · rw [Utf8.encode_append, Utf8.encode_append, List.length_append, List.length_append, hlen, hcbyte, hbyte]
  refine ⟨i, _, hl, hcline.trans hline, ?_, ?_⟩
  · rw [hcbyte, hbyte, Nat.add_assoc]
    exact Nat.le_add_right _ _
  have hpos : 0 < (Utf8.encode [cell.char]).length := by
    rw [Utf8.encode_cons, Utf8.encode_nil, List.append_nil, String.length_utf8EncodeChar]
    exact cell.char.utf8Size_pos
  rw [hcbyte, hbyte, htext, Utf8.encode_append, Utf8.encode_append, List.length_append, List.length_append,
    encode_cons_length cell.char q]
  omega

/-! ## The numbers of the marks -/

theorem length_le_encode (cs : List Char) : cs.length ≤ (Utf8.encode cs).length := by
  induction cs with
  | nil => exact Nat.le_refl _
  | cons c cs ih =>
    have hpos : 0 < (Utf8.encode [c]).length := by
      rw [Utf8.encode_cons, Utf8.encode_nil, List.append_nil, String.length_utf8EncodeChar]
      exact c.utf8Size_pos
    rw [encode_cons_length, List.length_cons]
    omega

def rowSize (row : Option Row) : Nat := row.elim 0 fun row => row.text.length + 1

theorem rowSize_le {lines : FileLines} {g : List Char × Nat → Option Row}
    (hg : ∀ l row, g l = some row → row.text.length ≤ l.1.length) {before behind : List (Option Row)} {rows : List Row}
    (h : lines.zipIdx.map g = before ++ rows.map some ++ behind) :
    (rows.map fun row => row.text.length + 1).sum ≤ sourceSize lines := by
  have hall : ((lines.zipIdx.map g).map rowSize).sum ≤ (lines.zipIdx.map fun l => (Utf8.encode l.1).length + 1).sum := by
    rw [List.map_map]
    refine List.sum_le_sum fun l _ => ?_
    have hbytes := length_le_encode l.1
    rw [Function.comp_apply]
    cases hrow : g l with
    | none => exact Nat.zero_le _
    | some row =>
      have hlen := hg l row hrow
      show row.text.length + 1 ≤ _
      omega
  have hlines : lines.zipIdx.map (fun l => (Utf8.encode l.1).length + 1) = lines.map fun l => (Utf8.encode l).length + 1 := by
    conv_rhs => rw [← List.zipIdx_map_fst 0 lines, List.map_map]
    rfl
  have hrows : (rows.map some).map rowSize = rows.map fun row => row.text.length + 1 := by
    rw [List.map_map]
    rfl
  rw [h, List.map_append, List.map_append, List.sum_append, List.sum_append, hrows, hlines] at hall
  rw [sourceSize, lineStart, List.take_length]
  omega

theorem StreamRows.size {lines : FileLines} {rows : List Row} {stream : CollapsedText} (h : StreamRows lines rows stream) :
    (rows.map fun row => row.text.length + 1).sum ≤ sourceSize lines := by
  cases h with
  | whole =>
    refine @rowSize_le lines (fun l => some (lineRow lines l)) ?_ [] [] _ ?_
    · rintro l row ⟨⟩
      exact Nat.le_refl _
    · rw [List.nil_append, List.append_nil, List.map_map]
      rfl
  | block before behind _ heq =>
    refine rowSize_le ?_ heq
    intro l row hrow
    obtain ⟨rest, hrest, rfl⟩ := Option.map_eq_some_iff.mp hrow
    exact (commentRest_suffix hrest).length_le

theorem width_rows (rows : List Row) :
    width (texts (rows.flatMap rowWords)) ≤ (rows.map fun row => row.text.length + 1).sum := by
  rw [texts_flatMap]
  induction rows with
  | nil => exact Nat.le_refl _
  | cons row rows ih =>
    rw [List.flatMap_cons, width_append, List.map_cons, List.sum_cons]
    exact Nat.add_le_add (width_words row.text) ih

theorem StreamRows.numbers (h : StreamRows lines rows stream) {mark : WordMark} (hmark : mark ∈ stream.marks) :
    ∀ n ∈ markNumbers mark, n ≤ sourceSize lines := by
  rw [h.eq_collapse] at hmark
  obtain ⟨i, hi⟩ := List.mem_iff_getElem?.mp hmark
  obtain ⟨us, w, vs, heq, -, rfl⟩ := getElem?_marksFrom hi
  have hwidth := (width_rows rows).trans h.size
  rw [heq, texts_append, width_append, texts_cons, width_cons] at hwidth
  have hw : w ∈ rows.flatMap rowWords := by
    rw [heq]
    exact List.mem_append_right _ List.mem_cons_self
  obtain ⟨row, hrow, hw⟩ := List.mem_flatMap.mp hw
  obtain ⟨index, l, head, hl, hline, rfl, hbyte⟩ := h.rowOf row hrow
  obtain ⟨t, -, rfl⟩ := List.mem_map.mp hw
  dsimp only at hwidth
  have hend := lineStart_le hl
  have hlines : index + 1 ≤ sourceSize lines := by
    have hcount : index ≤ lineStart lines index := by
      have hlt := (List.getElem?_eq_some_iff.mp hl).1
      have hone : ∀ n ∈ (lines.take index).map fun l => (Utf8.encode l).length + 1, 1 ≤ n := by
        intro n hn
        obtain ⟨l, -, rfl⟩ := List.mem_map.mp hn
        exact Nat.le_add_left _ _
      have hsum := List.length_le_sum_of_one_le _ hone
      rwa [List.length_map, List.length_take, Nat.min_eq_left (Nat.le_of_lt hlt)] at hsum
    omega
  have hbytes : row.byte + (Utf8.encode (row.text.take t.1)).length ≤ sourceSize lines := by
    have hsplit := congrArg (fun cs => (Utf8.encode cs).length) (List.take_append_drop t.1 row.text)
    simp only [Utf8.encode_append, List.length_append] at hsplit
    rw [Utf8.encode_append, List.length_append] at hend
    omega
  intro n hn
  simp only [markNumbers, markOf, List.mem_cons, List.not_mem_nil, or_false] at hn
  rcases hn with rfl | rfl | rfl | rfl
  · omega
  · omega
  · omega
  · exact hbytes

theorem mapM_ok_of {ε : Type} {f : α → Except ε β} : ∀ {xs : List α}, (∀ x ∈ xs, ∃ y, f x = .ok y) →
    ∃ ys, xs.mapM f = .ok ys
  | [], _ => ⟨[], rfl⟩
  | x :: xs, h => by
    obtain ⟨y, hy⟩ := h x List.mem_cons_self
    obtain ⟨ys, hys⟩ := mapM_ok_of fun x' hx' => h x' (List.mem_cons_of_mem x hx')
    exact ⟨y :: ys, mapM_cons_ok hy hys⟩

theorem StreamRows.packMarks (zlib : Zlib) (h : StreamRows lines rows stream) (hsize : sourceSize lines < 256 ^ 4) :
    ∃ payload, Citations.packMarks zlib stream.marks = .ok payload := by
  have hone : ∀ mark ∈ stream.marks, ∃ bs, orRaise .structError (pack markFormat (markNumbers mark)) = .ok bs := by
    intro mark hmark
    have hnumbers := h.numbers hmark
    have hfit : List.Forall₂ (fun width n => n < 256 ^ width) markFormat (markNumbers mark) := by
      rw [markNumbers] at hnumbers ⊢
      simp only [List.mem_cons, List.not_mem_nil, or_false, forall_eq_or_imp, forall_eq] at hnumbers
      obtain ⟨h₁, h₂, h₃, h₄⟩ := hnumbers
      exact .cons (by omega) (.cons (by omega) (.cons (by omega) (.cons (by omega) .nil)))
    obtain ⟨bs, hbs⟩ := Option.isSome_iff_exists.mp (pack_isSome hfit)
    exact ⟨bs, by rw [hbs]; rfl⟩
  obtain ⟨packed, hpacked⟩ := mapM_ok_of hone
  exact ⟨zlib.compress packed.flatten, by rw [Citations.packMarks, hpacked]; rfl⟩

/-! ## The streams of a file -/

theorem mem_blocksFrom {stream : CollapsedText} : ∀ {rows : List (Option Row)} {pending : List Row},
    stream ∈ blocksFrom (pending.flatMap rowWords) rows → ∃ (before behind : List (Option Row)) (run : List Row),
      pending.map some ++ rows = before ++ run.map some ++ behind ∧ stream = collapse (run.flatMap rowWords)
  | [], pending, h => by
    rw [blocksFrom, closeBlock] at h
    split at h
    · cases h
    · exact ⟨[], [], pending, by simp, List.mem_singleton.mp h⟩
  | none :: rows, pending, h => by
    rw [blocksFrom, List.mem_append] at h
    rcases h with h | h
    · rw [closeBlock] at h
      split at h
      · cases h
      · exact ⟨[], none :: rows, pending, rfl, List.mem_singleton.mp h⟩
    obtain ⟨before, behind, run, heq, hstream⟩ := @mem_blocksFrom stream _ [] h
    refine ⟨pending.map some ++ none :: before, behind, run, ?_, hstream⟩
    have heq' : rows = before ++ run.map some ++ behind := heq
    rw [heq']
    simp only [List.append_assoc, List.cons_append]
  | some row :: rows, pending, h => by
    rw [blocksFrom] at h
    have hpending : pending.flatMap rowWords ++ rowWords row = (pending ++ [row]).flatMap rowWords := by
      rw [List.flatMap_append, List.flatMap_singleton]
    rw [hpending] at h
    obtain ⟨before, behind, run, heq, hstream⟩ := mem_blocksFrom h
    refine ⟨before, behind, run, ?_, hstream⟩
    rw [← heq, List.map_append, List.append_assoc]
    rfl

theorem streamRows_of (h : stream ∈ collapsed lines :: lineCommentBlocks lines) :
    ∃ rows, StreamRows lines rows stream := by
  rcases List.mem_cons.mp h with rfl | h
  · exact ⟨_, .whole⟩
  · obtain ⟨before, behind, run, heq, rfl⟩ := @mem_blocksFrom stream _ [] h
    exact ⟨run, .block before behind run heq⟩

/-- What the index stores is read back: the postings of every key in their order, whenever the buffer was flushed, and
every stream of a file. A search in a stream never fails; it has one match for each occurrence of the quote, with the
lines and the bytes of the occurrence. -/
theorem index_codecs {κ : Type} [DecidableEq κ] (anchorKey : Anchor → κ) (zlib : Zlib) :
    (∀ acts table, acts.foldlM (TableAct.apply anchorKey) PostingTable.empty = .ok table → ∀ key,
      unpackPostings (bytesAt (flushPostings table).stored key) = .ok (postingsOf anchorKey acts key)) ∧
    ∀ lines, ∀ stream ∈ collapsed lines :: lineCommentBlocks lines,
      unpackText zlib (packText zlib stream.text) = .ok stream.text ∧
      (∀ payload, packMarks zlib stream.marks = .ok payload →
        unpackMarks zlib stream.text payload = .ok stream.marks) ∧
      (sourceSize lines < 256 ^ 4 → ∃ payload, packMarks zlib stream.marks = .ok payload) ∧
      ∃ rows, StreamRows lines rows stream ∧ (∀ cell ∈ rows.flatMap rowCells, Stands lines cell) ∧
        ∀ quote, ∃ found, Found (rows.flatMap rowCells) stream quote found := by
  constructor
  · exact fun acts table h key => unpackPostings_stored h key
  intro lines stream hstream
  obtain ⟨rows, hrows⟩ := streamRows_of hstream
  refine ⟨unpackText_packText zlib stream.text, ?_, hrows.packMarks zlib, rows, hrows, ?_, ?_⟩
  · intro payload hpayload
    have heq := hrows.eq_collapse
    rw [heq] at hpayload ⊢
    refine unpackMarks_packMarks zlib ?_ hpayload
    intro w hw
    obtain ⟨row, hrow, hw⟩ := List.mem_flatMap.mp hw
    obtain ⟨i, -, -, -, hline, -⟩ := hrows.rowOf row hrow
    rw [line_rowWords row w hw, hline]
    exact Nat.le_add_left 1 i
  · intro cell hcell
    obtain ⟨row, hrow, hcell⟩ := List.mem_flatMap.mp hcell
    exact stands_of_row (hrows.rowOf row hrow) hcell
  · intro quote
    rw [hrows.eq_collapse]
    exact found_of_rows rows quote

def twoFiles : List TableAct :=
  [.buffer 1 [(⟨.symbol, "f"⟩, [⟨3, 300, .definition⟩])], .flush,
    .buffer 2 [(⟨.symbol, "f"⟩, [⟨1, 1, .occurrence⟩, ⟨70000, 70001, .occurrence⟩])]]

theorem index_codecs_two_files :
    ∃ table : PostingTable Anchor, twoFiles.foldlM (TableAct.apply id) PostingTable.empty = .ok table ∧
      unpackPostings (bytesAt (flushPostings table).stored ⟨.symbol, "f"⟩) =
        .ok [(1, [⟨3, 300, .definition⟩]), (2, [⟨1, 1, .occurrence⟩, ⟨70000, 70001, .occurrence⟩])] :=
  ⟨_, rfl, (index_codecs id ⟨id, some, fun _ => rfl⟩).1 twoFiles _ rfl ⟨.symbol, "f"⟩⟩

end AgentsRemember.Citations
