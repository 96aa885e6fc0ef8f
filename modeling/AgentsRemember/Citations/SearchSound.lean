import AgentsRemember.Citations.SourceIndex
import AgentsRemember.Citations.StreamSound

/-!
# The codecs give back what they took

The stored bytes of a key and the buffered bytes behind them are always the
postings of the key one after the other. A mark keeps its word as a slice of the
text, and the text has its words at the places of the marks.
-/

namespace AgentsRemember.Citations

open Lib Lib.Packing Lib.Lines Lib.Tokens Lib.Words

variable {ε α β : Type} {f : α → Except ε β} {x : α} {xs : List α} {ys : List β} {bs : Bytes}
  {us vs ws : List SourceWord} {w : SourceWord} {offset : Nat} {pre post : List Char}

theorem bind_eq_ok {x : Except ε α} {b : β} (h : (x >>= f) = .ok b) : ∃ a, x = .ok a ∧ f a = .ok b := by
  cases x with
  | error e => cases h
  | ok a => exact ⟨a, rfl, h⟩

theorem orRaise_eq_ok {e : IndexError} {o : Option α} {a : α} (h : orRaise e o = .ok a) : o = some a := by
  cases o with
  | none => cases h
  | some b =>
    obtain rfl := Except.ok.inj h
    rfl

theorem mapM_ok_cons (h : (x :: xs).mapM f = .ok ys) : ∃ y ys', f x = .ok y ∧ xs.mapM f = .ok ys' ∧ ys = y :: ys' := by
  rw [List.mapM_cons] at h
  obtain ⟨y, hy, h⟩ := bind_eq_ok h
  obtain ⟨ys', hys, h⟩ := bind_eq_ok h
  exact ⟨y, ys', hy, hys, (Except.ok.inj h).symm⟩

theorem mapM_cons_ok {y : β} (hx : f x = .ok y) (hxs : xs.mapM f = .ok ys) : (x :: xs).mapM f = .ok (y :: ys) := by
  rw [List.mapM_cons, hx, hxs]
  rfl

theorem mapM_append_ok : ∀ {xs xs' : List α} {ys ys' : List β},
    xs.mapM f = .ok ys → xs'.mapM f = .ok ys' → (xs ++ xs').mapM f = .ok (ys ++ ys')
  | [], xs', ys, ys', h, h' => by
    obtain rfl := Except.ok.inj h
    exact h'
  | x :: xs, xs', ys, ys', h, h' => by
    obtain ⟨y, ys₀, hx, hxs, rfl⟩ := mapM_ok_cons h
    exact mapM_cons_ok hx (mapM_append_ok hxs h')

/-! ## Packed values -/

theorem mapM_records {format : Format} {put : α → Except IndexError Bytes} {get : List Nat → Except IndexError α} :
    ∀ {xs : List α} {packed : List Bytes},
    (∀ x ∈ xs, ∀ bs, put x = .ok bs → ∃ ns, pack format ns = some bs ∧ get ns = .ok x) → xs.mapM put = .ok packed →
      ∃ rows : List (List Nat), rows.mapM (pack format) = some packed ∧ rows.length = xs.length ∧ rows.mapM get = .ok xs
  | [], packed, _, h => by
    obtain rfl := Except.ok.inj h
    exact ⟨[], rfl, rfl, rfl⟩
  | x :: xs, packed, hone, h => by
    obtain ⟨bs, tail, hbs, htail, rfl⟩ := mapM_ok_cons h
    obtain ⟨ns, hpack, hget⟩ := hone x List.mem_cons_self bs hbs
    obtain ⟨rows, hrows, hlen, hgets⟩ := mapM_records (fun y hy => hone y (List.mem_cons_of_mem x hy)) htail
    refine ⟨ns :: rows, ?_, by rw [List.length_cons, List.length_cons, hlen], mapM_cons_ok hget hgets⟩
    rw [List.mapM_cons, hpack, hrows]
    rfl

theorem extentKind_code {kind : ExtentKind} {code : Nat} (h : extentCode kind = some code) : extentKind code = some kind := by
  cases kind <;> cases h <;> rfl

theorem packExtent_ok {one : Extent} (h : packExtent one = .ok bs) :
    ∃ ns, pack extentRecord ns = some bs ∧ unpackExtent ns = .ok one := by
  obtain ⟨code, hcode, h⟩ := bind_eq_ok h
  refine ⟨_, orRaise_eq_ok h, ?_⟩
  rw [unpackExtent, extentKind_code (orRaise_eq_ok hcode)]
  rfl

theorem packExtents_ok {spans : List Extent} (h : packExtents spans = .ok bs) :
    bs.length = spans.length * size extentRecord ∧ unpackExtents bs = .ok spans := by
  obtain ⟨packed, hpacked, h⟩ := bind_eq_ok h
  obtain rfl := Except.ok.inj h
  obtain ⟨rows, hrows, hlen, hgets⟩ := mapM_records (fun one _ _ hone => packExtent_ok hone) hpacked
  have hbytes := length_flatten_packed hrows
  have hmod : packed.flatten.length % size extentRecord = 0 := by
    rw [hbytes]
    exact Nat.mul_mod_left _ _
  refine ⟨by rw [hbytes, hlen], ?_⟩
  rw [unpackExtents, if_neg (not_not.mpr hmod), records_packed (by decide) hrows, hgets]

theorem packPosting_ok {posting : Posting} (h : packPosting posting = .ok bs) :
    bs ≠ [] ∧ ∀ (fuel : Nat) (rest : Bytes) (found : List Posting), unpackPostingsFrom fuel rest = .ok found →
      unpackPostingsFrom (fuel + 1) (bs ++ rest) = .ok (posting :: found) := by
  rw [packPosting] at h
  split at h
  · cases h
  obtain ⟨header, hheader, h⟩ := bind_eq_ok h
  obtain ⟨spans, hspans, h⟩ := bind_eq_ok h
  obtain rfl := Except.ok.inj h
  have hpack := orRaise_eq_ok hheader
  have hhead := length_pack hpack
  obtain ⟨hlen, hget⟩ := packExtents_ok hspans
  have hsize : size postingHeader = 6 := rfl
  have hne : header ≠ [] := by
    rintro rfl
    rw [hsize] at hhead
    cases hhead
  refine ⟨List.append_ne_nil_of_left_ne_nil hne spans, ?_⟩
  intro fuel rest found hrest
  obtain ⟨b, bs, hb⟩ := List.exists_cons_of_ne_nil hne
  have hstart : header ++ spans ++ rest = b :: (bs ++ spans ++ rest) := by rw [hb]; rfl
  have hshort : ¬ (header ++ spans ++ rest).length < size postingHeader := by
    rw [List.append_assoc, List.length_append]
    omega
  have hbody : (header ++ spans ++ rest).drop (size postingHeader) = spans ++ rest := by
    rw [List.append_assoc]
    exact List.drop_left' hhead
  have hnumbers : unpack postingHeader (header ++ spans ++ rest) = [posting.1, posting.2.length] := by
    rw [List.append_assoc]
    exact unpack_pack hpack (spans ++ rest)
  rw [hstart] at hshort hbody hnumbers ⊢
  rw [unpackPostingsFrom, if_neg hshort, hnumbers]
  swap
  · exact List.cons_ne_nil _ _
  dsimp only
  have hfit : ¬ posting.2.length * size extentRecord > (spans ++ rest).length := by
    rw [← hlen, List.length_append]
    omega
  rw [hbody, if_neg hfit, List.take_left' hlen, List.drop_left' hlen, hget, hrest]
  rfl

theorem unpackPostingsFrom_packed : ∀ {postings : List Posting} {packed : List Bytes},
    postings.mapM packPosting = .ok packed → ∀ fuel, packed.flatten.length ≤ fuel →
      unpackPostingsFrom fuel packed.flatten = .ok postings
  | [], packed, h, fuel, _ => by
    obtain rfl := Except.ok.inj h
    cases fuel <;> rfl
  | posting :: postings, packed, h, fuel, hfuel => by
    obtain ⟨bs, tail, hbs, htail, rfl⟩ := mapM_ok_cons h
    obtain ⟨hne, hread⟩ := packPosting_ok hbs
    have hpos := List.length_pos_of_ne_nil hne
    rw [List.flatten_cons, List.length_append] at hfuel
    obtain ⟨n, rfl⟩ : ∃ n, fuel = n + 1 := ⟨fuel - 1, by omega⟩
    exact hread n tail.flatten postings (unpackPostingsFrom_packed htail n (by omega))

/-! ## The buffer -/

section
variable {κ : Type} [DecidableEq κ]

def bytesAt (rows : Dict κ Bytes) (key : κ) : Bytes := (rows.get? key).getD []

theorem bytesAt_appendTo (rows : Dict κ Bytes) (k key : κ) (bs : Bytes) :
    bytesAt (appendTo rows k bs) key = if k = key then bytesAt rows key ++ bs else bytesAt rows key := by
  rw [bytesAt, appendTo, Dict.get?_set]
  split
  · rename_i heq
    rw [heq]
    rfl
  · rfl

theorem bytesAt_foldl {key : κ} : ∀ {entries : List (κ × Bytes)} (rows : Dict κ Bytes), (entries.map Prod.fst).Nodup →
    bytesAt (entries.foldl (fun rows e => appendTo rows e.1 e.2) rows) key =
      bytesAt rows key ++ (Dict.lookupIn key entries).getD []
  | [], rows, _ => (List.append_nil _).symm
  | (k, bs) :: entries, rows, hnodup => by
    obtain ⟨hk, hrest⟩ := List.nodup_cons.mp hnodup
    rw [List.foldl_cons, bytesAt_foldl _ hrest, bytesAt_appendTo, Dict.lookupIn]
    split
    · rename_i heq
      subst heq
      rw [Dict.lookupIn_eq_none.mpr hk]
      exact List.append_nil _
    · rfl

def PostingTable.bytes (table : PostingTable κ) (key : κ) : Bytes := bytesAt table.stored key ++ bytesAt table.buffer key

theorem flushPostings_bytes (table : PostingTable κ) (key : κ) : (flushPostings table).bytes key = table.bytes key := by
  rw [flushPostings]
  split
  · rfl
  · rw [PostingTable.bytes, bytesAt_foldl _ table.buffer.nodup]
    exact List.append_nil _

theorem flushPostings_stored (table : PostingTable κ) (key : κ) :
    bytesAt (flushPostings table).stored key = table.bytes key := by
  rw [← flushPostings_bytes, PostingTable.bytes]
  have hempty : bytesAt (flushPostings table).buffer key = [] := by
    rw [flushPostings]
    split
    · rename_i hnil
      rw [bytesAt, Dict.get?, hnil]
      rfl
    · rfl
  rw [hempty, List.append_nil]

/-- The bytes of every key are its postings one after the other. -/
def Holds (table : PostingTable κ) (postings : κ → List Posting) : Prop :=
  ∀ key, ∃ packed, (postings key).mapM packPosting = .ok packed ∧ table.bytes key = packed.flatten

variable {table table' : PostingTable κ} {fileId : Nat}

theorem Holds.of_eq {postings postings' : κ → List Posting} (h : Holds table postings)
    (heq : ∀ key, postings key = postings' key) : Holds table postings' := by
  rw [← funext heq]
  exact h

theorem holds_empty : Holds (PostingTable.empty : PostingTable κ) fun _ => [] := fun _ => ⟨[], rfl, rfl⟩

theorem Holds.flush {postings : κ → List Posting} (h : Holds table postings) :
    Holds (flushPostings table) postings := by
  intro key
  obtain ⟨packed, hpacked, hbytes⟩ := h key
  exact ⟨packed, hpacked, (flushPostings_bytes table key).trans hbytes⟩

variable (anchorKey : Anchor → κ)

def directOf (fileId : Nat) (direct : List (Anchor × List Extent)) (key : κ) : List Posting :=
  (direct.filter fun d => anchorKey d.1 = key).map fun d => (fileId, d.2)

variable {anchorKey}

theorem Holds.bufferPosting {postings : κ → List Posting} (h : Holds table postings) {d : Anchor × List Extent}
    (hd : Citations.bufferPosting anchorKey fileId table d = .ok table') :
    Holds table' fun key => postings key ++ directOf anchorKey fileId [d] key := by
  obtain ⟨bs, hbs, hd⟩ := bind_eq_ok hd
  obtain rfl := Except.ok.inj hd
  intro key
  obtain ⟨packed, hpacked, hbytes⟩ := h key
  rw [PostingTable.bytes] at hbytes
  dsimp only
  by_cases hkey : anchorKey d.1 = key
  · have hone : directOf anchorKey fileId [d] key = [(fileId, d.2)] := by simp [directOf, hkey]
    refine ⟨packed ++ [bs], ?_, ?_⟩
    · rw [hone]
      exact mapM_append_ok hpacked (mapM_cons_ok hbs rfl)
    · rw [PostingTable.bytes, bytesAt_appendTo, if_pos hkey, ← List.append_assoc, hbytes, List.flatten_append,
        List.flatten_singleton]
  have hnone : directOf anchorKey fileId [d] key = [] := by simp [directOf, hkey]
  refine ⟨packed, ?_, ?_⟩
  · rw [hnone, List.append_nil]
    exact hpacked
  · rw [PostingTable.bytes, bytesAt_appendTo, if_neg hkey, hbytes]

theorem directOf_cons (fileId : Nat) (d : Anchor × List Extent) (direct : List (Anchor × List Extent)) (key : κ) :
    directOf anchorKey fileId (d :: direct) key = directOf anchorKey fileId [d] key ++ directOf anchorKey fileId direct key := by
  rw [directOf, directOf, directOf, ← List.map_append, ← List.filter_append]
  rfl

theorem Holds.foldlM : ∀ {direct : List (Anchor × List Extent)} {table table' : PostingTable κ}
    {postings : κ → List Posting}, Holds table postings →
    direct.foldlM (Citations.bufferPosting anchorKey fileId) table = .ok table' →
      Holds table' fun key => postings key ++ directOf anchorKey fileId direct key
  | [], table, table', postings, h, heq => by
    obtain rfl := Except.ok.inj heq
    exact h.of_eq fun key => (List.append_nil _).symm
  | d :: direct, table, table', postings, h, heq => by
    rw [List.foldlM_cons] at heq
    obtain ⟨next, hnext, heq⟩ := bind_eq_ok heq
    refine ((h.bufferPosting hnext).foldlM heq).of_eq fun key => ?_
    rw [directOf_cons fileId d direct, List.append_assoc]

theorem Holds.bufferPostings {postings : κ → List Posting} (h : Holds table postings)
    {direct : List (Anchor × List Extent)} (heq : Citations.bufferPostings anchorKey table fileId direct = .ok table') :
    Holds table' fun key => postings key ++ directOf anchorKey fileId direct key := by
  obtain ⟨buffered, hbuffered, heq⟩ := bind_eq_ok heq
  have hnext := h.foldlM hbuffered
  split at heq
  · obtain rfl := Except.ok.inj heq
    exact hnext.flush
  · obtain rfl := Except.ok.inj heq
    exact hnext

inductive TableAct
  | buffer (fileId : Nat) (direct : List (Anchor × List Extent))
  | flush

variable (anchorKey)

def TableAct.apply (table : PostingTable κ) : TableAct → Except IndexError (PostingTable κ)
  | .buffer fileId direct => Citations.bufferPostings anchorKey table fileId direct
  | .flush => pure (flushPostings table)

def TableAct.postings : TableAct → κ → List Posting
  | .buffer fileId direct => directOf anchorKey fileId direct
  | .flush => fun _ => []

def postingsOf (acts : List TableAct) (key : κ) : List Posting := acts.flatMap fun act => act.postings anchorKey key

variable {anchorKey}

theorem Holds.apply {postings : κ → List Posting} (h : Holds table postings) :
    ∀ {act : TableAct}, act.apply anchorKey table = .ok table' →
      Holds table' fun key => postings key ++ act.postings anchorKey key
  | .buffer fileId direct, hact => h.bufferPostings hact
  | .flush, hact => by
    obtain rfl := Except.ok.inj hact
    exact h.flush.of_eq fun key => (List.append_nil _).symm

theorem Holds.acts : ∀ {acts : List TableAct} {table table' : PostingTable κ} {postings : κ → List Posting},
    Holds table postings → acts.foldlM (TableAct.apply anchorKey) table = .ok table' →
      Holds table' fun key => postings key ++ postingsOf anchorKey acts key
  | [], table, table', postings, h, heq => by
    obtain rfl := Except.ok.inj heq
    exact h.of_eq fun key => (List.append_nil _).symm
  | act :: acts, table, table', postings, h, heq => by
    rw [List.foldlM_cons] at heq
    obtain ⟨next, hnext, heq⟩ := bind_eq_ok heq
    refine ((h.apply hnext).acts heq).of_eq fun key => ?_
    rw [postingsOf, postingsOf, List.flatMap_cons, List.append_assoc]

theorem unpackPostings_stored {acts : List TableAct}
    (h : acts.foldlM (TableAct.apply anchorKey) PostingTable.empty = .ok table) (key : κ) :
    unpackPostings (bytesAt (flushPostings table).stored key) = .ok (postingsOf anchorKey acts key) := by
  obtain ⟨packed, hpacked, hbytes⟩ := holds_empty.acts h key
  rw [flushPostings_stored, hbytes]
  exact unpackPostingsFrom_packed hpacked _ (Nat.le_refl _)

end

/-! ## Marks -/

theorem joinWords_at (us : List SourceWord) (w : SourceWord) (vs : List SourceWord) :
    ∃ bs, joinWords (texts (us ++ w :: vs)) = (texts us).flatMap (· ++ [' ']) ++ w.text ++ bs := by
  obtain ⟨bs, hbs⟩ := @prefix_joinWords [w.text] (texts vs) (List.cons_ne_nil _ _)
  have hone : joinWords [w.text] = w.text := List.intercalate_singleton
  rw [hone] at hbs
  have hne : texts (w :: vs) ≠ [] := List.cons_ne_nil _ _
  refine ⟨bs, ?_⟩
  rw [texts_append, joinWords_append hne, List.append_assoc, ← hbs]
  rfl

theorem slice_joinWords (us : List SourceWord) (w : SourceWord) (vs : List SourceWord) :
    width (texts us) + w.text.length ≤ (joinWords (texts (us ++ w :: vs))).length ∧
      ((joinWords (texts (us ++ w :: vs))).take (width (texts us) + w.text.length)).drop (width (texts us)) = w.text := by
  obtain ⟨bs, hjoin⟩ := joinWords_at us w vs
  have hlen : ((texts us).flatMap (· ++ [' ']) ++ w.text).length = width (texts us) + w.text.length := by
    rw [List.length_append, length_flatMap_space]
  rw [hjoin]
  constructor
  · rw [List.length_append, hlen]
    exact Nat.le_add_right _ _
  · rw [List.take_left' hlen, List.drop_left' (length_flatMap_space _)]

theorem unpackMark_markOf (hline : 1 ≤ w.line) :
    unpackMark (joinWords (texts (us ++ w :: vs))) (markNumbers (markOf 0 us w)) = .ok (markOf 0 us w) := by
  obtain ⟨hle, hslice⟩ := slice_joinWords us w vs
  have hsound : ¬ (width (texts us) > width (texts us) + w.text.length ∨
      width (texts us) + w.text.length > (joinWords (texts (us ++ w :: vs))).length ∨ w.line < 1) := by omega
  rw [markNumbers, markOf, Nat.zero_add, unpackMark, if_neg hsound, hslice]

theorem unpackMarks_packMarks (zlib : Zlib) (hlines : ∀ w ∈ ws, 1 ≤ w.line) {payload : Bytes}
    (h : packMarks zlib (collapse ws).marks = .ok payload) :
    unpackMarks zlib (collapse ws).text payload = .ok (collapse ws).marks := by
  obtain ⟨packed, hpacked, h⟩ := bind_eq_ok h
  obtain rfl := Except.ok.inj h
  have hone : ∀ mark ∈ (collapse ws).marks, ∀ bs, orRaise .structError (pack markFormat (markNumbers mark)) = .ok bs →
      ∃ ns, pack markFormat ns = some bs ∧ unpackMark (collapse ws).text ns = .ok mark := by
    intro mark hmark bs hbs
    refine ⟨_, orRaise_eq_ok hbs, ?_⟩
    obtain ⟨i, hi⟩ := List.mem_iff_getElem?.mp hmark
    obtain ⟨us, w, vs, rfl, -, rfl⟩ := getElem?_marksFrom hi
    exact unpackMark_markOf (hlines w (by simp))
  obtain ⟨rows, hrows, -, hgets⟩ := mapM_records hone hpacked
  have hmod : packed.flatten.length % size markFormat = 0 := by
    rw [length_flatten_packed hrows]
    exact Nat.mul_mod_left _ _
  rw [unpackMarks, zlib.decompress_compress, orRaise]
  show (if packed.flatten.length % size markFormat ≠ 0 then _ else _) = _
  rw [if_neg (not_not.mpr hmod), records_packed (by decide) hrows, hgets]

theorem unpackText_packText (zlib : Zlib) (text : List Char) : unpackText zlib (packText zlib text) = .ok text := by
  rw [unpackText, packText, zlib.decompress_compress, Option.bind_some, Utf8.decode_encode]
  rfl

/-! ## Where a quote stands

A stream keeps, of the characters of its lines, those of words, in their order.
So an occurrence of a quote in the stream is a run of these characters, and the
match of the occurrence has the lines of its ends and the bytes that they take
in the source.
-/

open Lib Lib.Lines Lib.Tokens Lib.Words

structure Cell where
  line : Nat
  byte : Nat
  char : Char

def textCells (line : Nat) : Nat → List Char → List Cell
  | _, [] => []
  | byte, c :: cs => ⟨line, byte, c⟩ :: textCells line (byte + (Utf8.encode [c]).length) cs

/-- The characters of a row that belong to words. -/
def rowCells (row : Row) : List Cell := (textCells row.line row.byte row.text).filter fun cell => isWordChar cell.char

def wordCells (w : SourceWord) : List Cell := textCells w.line w.byte w.text

def chars (cells : List Cell) : List Char := cells.map (·.char)

/-- What a match says of an occurrence behind `pre`: among the characters of words, the occurrence is a run, and the
match has the ends of the run. -/
def MatchOf (cells : List Cell) (pre target : List Char) (m : QuoteMatch) : Prop :=
  ∃ before here behind, cells = before ++ here ++ behind ∧ chars before = pre.filter isWordChar ∧
    chars here = target.filter isWordChar ∧
    (∃ first ∈ here.head?, m.start = first.line ∧ m.sourceByteStart = first.byte) ∧
    ∃ last ∈ here.getLast?, m.stop = last.line ∧ m.sourceByteEnd = last.byte + (Utf8.encode [last.char]).length

/-! ## Characters of words -/

theorem encode_cons_length (c : Char) (cs : List Char) :
    (Utf8.encode (c :: cs)).length = (Utf8.encode [c]).length + (Utf8.encode cs).length := by
  rw [← List.singleton_append, Utf8.encode_append, List.length_append]

theorem textCells_append (line : Nat) : ∀ (byte : Nat) (xs ys : List Char),
    textCells line byte (xs ++ ys) = textCells line byte xs ++ textCells line (byte + (Utf8.encode xs).length) ys
  | _, [], _ => rfl
  | byte, c :: cs, ys => by
    rw [List.cons_append, textCells, textCells_append, textCells, List.cons_append, encode_cons_length c cs, Nat.add_assoc]

theorem chars_textCells (line : Nat) : ∀ (byte : Nat) (cs : List Char), chars (textCells line byte cs) = cs
  | _, [] => rfl
  | byte, c :: cs => congrArg (c :: ·) (chars_textCells line (byte + (Utf8.encode [c]).length) cs)

theorem chars_append (xs ys : List Cell) : chars (xs ++ ys) = chars xs ++ chars ys := List.map_append

theorem tokens_cells (row : Row) : ∀ (pre cs : List Char), row.text = pre ++ cs →
    ((tokens isWordChar isWordChar 0 pre.length cs).map fun w =>
      (⟨row.line, row.byte + (Utf8.encode (row.text.take w.1)).length, w.2⟩ : SourceWord)).flatMap wordCells =
      (textCells row.line (row.byte + (Utf8.encode pre).length) cs).filter fun cell => isWordChar cell.char := by
  intro pre cs
  induction hn : cs.length using Nat.strongRecOn generalizing pre cs with
  | _ n ih =>
    intro htext
    cases cs with
    | nil => rfl
    | cons c cs =>
      rw [tokens]
      split
      · rename_i hc
        have hsplit := List.takeWhile_append_dropWhile (p := isWordChar) (l := cs)
        have hword : ∀ d ∈ c :: cs.takeWhile isWordChar, isWordChar d = true := by
          intro d hd
          rcases List.mem_cons.mp hd with rfl | hd
          · exact hc
          · exact List.mem_takeWhile_imp hd
        have hrest : row.text = (pre ++ c :: cs.takeWhile isWordChar) ++ cs.dropWhile isWordChar := by
          rw [htext, List.append_assoc, List.cons_append, hsplit]
        have hlen : (cs.dropWhile isWordChar).length < n := by
          have hle := (List.dropWhile_sublist (p := isWordChar) (l := cs)).length_le
          rw [List.length_cons] at hn
          omega
        have htail := ih _ hlen _ _ rfl hrest
        have hpos : (pre ++ c :: cs.takeWhile isWordChar).length = pre.length + 1 + (cs.takeWhile isWordChar).length := by
          rw [List.length_append, List.length_cons]
          omega
        rw [hpos] at htail
        have htake : row.text.take pre.length = pre := by rw [htext, List.take_left]
        have hhead : wordCells ⟨row.line, row.byte + (Utf8.encode pre).length, c :: cs.takeWhile isWordChar⟩ =
            (textCells row.line (row.byte + (Utf8.encode pre).length) (c :: cs.takeWhile isWordChar)).filter
              fun cell => isWordChar cell.char := by
          refine (List.filter_eq_self.mpr ?_).symm
          intro cell hcell
          have hchar : cell.char ∈ chars (textCells row.line (row.byte + (Utf8.encode pre).length)
              (c :: cs.takeWhile isWordChar)) := List.mem_map_of_mem hcell
          rw [chars_textCells] at hchar
          exact hword _ hchar
        rw [List.map_cons, List.flatMap_cons, tokens_skip, drop_takeWhile, htail, htake, hhead, Utf8.encode_append, List.length_append,
          ← Nat.add_assoc, ← List.filter_append, ← textCells_append, List.cons_append, hsplit]
      · rename_i hc
        have hrest : row.text = (pre ++ [c]) ++ cs := by rw [htext, List.append_assoc]; rfl
        have htail := ih cs.length (by rw [← hn]; exact Nat.lt_succ_self _) (pre ++ [c]) cs rfl hrest
        rw [List.length_append, List.length_singleton] at htail
        rw [htail, textCells, List.filter_cons, if_neg hc, Utf8.encode_append, List.length_append, Nat.add_assoc]

theorem rowWords_cells (row : Row) : (rowWords row).flatMap wordCells = rowCells row := tokens_cells row [] row.text rfl

theorem words_cells (rows : List Row) : (rows.flatMap rowWords).flatMap wordCells = rows.flatMap rowCells := by
  rw [List.flatMap_assoc]
  exact List.flatMap_congr fun row _ => rowWords_cells row

theorem searchMark_eq {marks : List WordMark} {r : Nat}
    (hup : ∀ i < r, ∃ m, marks[i]? = some m ∧ m.collapsedStart ≤ offset)
    (hbehind : ∀ i m, r ≤ i → marks[i]? = some m → offset < m.collapsedStart) :
    ∀ {fuel low high : Nat}, low ≤ r → r ≤ high → high ≤ low + fuel → searchMark marks offset fuel low high = r
  | 0, low, high, hlow, hhigh, hfuel => by
    rw [searchMark]
    omega
  | fuel + 1, low, high, hlow, hhigh, hfuel => by
    rw [searchMark]
    split
    · rename_i hlt
      dsimp only
      by_cases hmid : (low + high) / 2 < r
      · obtain ⟨m, hm, hle⟩ := hup _ hmid
        have hany : ((marks[(low + high) / 2]?).any fun m => m.collapsedStart ≤ offset) = true := by
          rw [hm]
          exact decide_eq_true hle
        rw [if_pos hany]
        exact searchMark_eq hup hbehind (by omega) hhigh (by omega)
      have hany : ((marks[(low + high) / 2]?).any fun m => m.collapsedStart ≤ offset) = false := by
        cases hm : marks[(low + high) / 2]? with
        | none => rfl
        | some m =>
          have hgt := hbehind _ m (Nat.le_of_not_lt hmid) hm
          exact decide_eq_false (Nat.not_le.mpr hgt)
      rw [if_neg (by rw [hany]; decide)]
      exact searchMark_eq hup hbehind hlow (by omega) (by omega)
    · omega

theorem width_le_of_prefix (h : us <+: vs) : width (texts us) ≤ width (texts vs) := by
  obtain ⟨ts, rfl⟩ := h
  rw [texts_append, width_append]
  exact Nat.le_add_right _ _

theorem wordMarkAt_markOf (hle : width (texts us) ≤ offset) (hlt : offset < width (texts us) + w.text.length) :
    wordMarkAt (marksFrom 0 (us ++ w :: vs)) offset = some (markOf 0 us w) := by
  have hsearch : searchMark (marksFrom 0 (us ++ w :: vs)) offset (marksFrom 0 (us ++ w :: vs)).length 0
      (marksFrom 0 (us ++ w :: vs)).length = us.length + 1 := by
    refine searchMark_eq ?_ ?_ (Nat.zero_le _) ?_ (Nat.le_add_left _ _)
    · intro i hi
      have hlen : i < (marksFrom 0 (us ++ w :: vs)).length := by
        rw [length_marksFrom, List.length_append, List.length_cons]
        omega
      have hm : (marksFrom 0 (us ++ w :: vs))[i]? = some ((marksFrom 0 (us ++ w :: vs))[i]) := List.getElem?_eq_getElem hlen
      obtain ⟨us', w', vs', heq, hlen', hmark⟩ := getElem?_marksFrom hm
      have hpre : us' <+: us := by
        refine List.prefix_of_prefix_length_le ⟨w' :: vs', heq.symm⟩ ⟨w :: vs, rfl⟩ ?_
        omega
      have hwidth := width_le_of_prefix hpre
      refine ⟨_, hm, ?_⟩
      rw [hmark, markOf, Nat.zero_add]
      exact hwidth.trans hle
    · intro i m hi hm
      obtain ⟨us', w', vs', heq, rfl, rfl⟩ := getElem?_marksFrom hm
      have hpre : us ++ [w] <+: us' := by
        refine List.prefix_of_prefix_length_le ⟨vs, List.append_assoc ..⟩ ⟨w' :: vs', heq.symm⟩ ?_
        rw [List.length_append, List.length_singleton]
        exact hi
      have hwidth := width_le_of_prefix hpre
      rw [texts_append, width_append] at hwidth
      have hone : width (texts [w]) = w.text.length + 1 := rfl
      show offset < 0 + width (texts us')
      omega
    · rw [length_marksFrom, List.length_append, List.length_cons]
      omega
  rw [wordMarkAt, hsearch]
  dsimp only
  rw [marksFrom_getElem?, Option.filter_some, if_pos]
  rw [markOf, decide_eq_true_eq, Nat.zero_add]
  exact hlt

/-! ## An occurrence -/

theorem filter_spaced : ∀ {us : List SourceWord}, (∀ w ∈ us, ∀ c ∈ w.text, isWordChar c = true) →
    ((texts us).flatMap (· ++ [' '])).filter isWordChar = chars (us.flatMap wordCells)
  | [], _ => rfl
  | u :: us, h => by
    have hword : u.text.filter isWordChar = u.text := List.filter_eq_self.mpr (h u List.mem_cons_self)
    have hspace : [' '].filter isWordChar = [] := by decide
    rw [texts_cons, List.flatMap_cons, List.filter_append, List.filter_append, hword, hspace, List.append_nil,
      filter_spaced fun w hw => h w (List.mem_cons_of_mem u hw), List.flatMap_cons, chars_append, wordCells, chars_textCells]

/-- A character of the stream that is no space is a character of a word, and as many characters of words stand before
the one as before the other. -/
theorem char_at (hws : ∀ w ∈ ws, ∀ c ∈ w.text, isWordChar c = true) {c : Char} (hc : isWordChar c = true)
    (htext : joinWords (texts ws) = pre ++ c :: post) :
    ∃ us w vs p q, ws = us ++ w :: vs ∧ w.text = p ++ c :: q ∧ pre.length = width (texts us) + p.length ∧
      ∃ before behind, ws.flatMap wordCells = before ++ ⟨w.line, w.byte + (Utf8.encode p).length, c⟩ :: behind ∧
        chars before = pre.filter isWordChar := by
  have hspace : c ≠ ' ' := by
    rintro rfl
    exact absurd hc (by decide)
  obtain ⟨us', w', vs', hsplit, hle, hlt⟩ := exists_word hspace htext
  obtain ⟨us, rest, rfl, rfl, hrest⟩ := List.map_eq_append_iff.mp hsplit
  obtain ⟨w, vs, rfl, rfl, rfl⟩ := List.map_eq_cons_iff.mp hrest
  obtain ⟨bs, hjoin⟩ := joinWords_at us w vs
  rw [hjoin] at htext
  have hlen := length_flatMap_space (texts us)
  obtain ⟨p, rfl⟩ : (texts us).flatMap (· ++ [' ']) <+: pre := by
    refine List.prefix_of_prefix_length_le ⟨w.text ++ bs, ?_⟩ ⟨c :: post, htext.symm⟩ (by rw [hlen]; exact hle)
    rw [List.append_assoc]
  rw [List.append_assoc, List.append_assoc] at htext
  have hin := List.append_cancel_left htext
  rw [List.length_append, hlen] at hlt
  obtain ⟨q, hq⟩ : p ++ [c] <+: w.text := by
    refine List.prefix_of_prefix_length_le ⟨post, ?_⟩ ⟨bs, hin⟩ ?_
    · rw [List.append_assoc]
      rfl
    rw [List.length_append, List.length_singleton]
    show p.length + 1 ≤ w.text.length
    have hlt' : width (texts us) + p.length < width (texts us) + w.text.length := hlt
    omega
  rw [List.append_assoc, List.singleton_append] at hq
  refine ⟨us, w, vs, p, q, rfl, hq.symm, by rw [List.length_append, hlen],
    us.flatMap wordCells ++ textCells w.line w.byte p,
    textCells w.line (w.byte + (Utf8.encode p).length + (Utf8.encode [c]).length) q ++ vs.flatMap wordCells, ?_, ?_⟩
  · rw [List.flatMap_append, List.flatMap_cons, wordCells, ← hq, textCells_append]
    simp only [textCells, List.append_assoc, List.cons_append]
  have hp : p.filter isWordChar = p := by
    refine List.filter_eq_self.mpr fun d hd => hws w (by simp) d ?_
    rw [← hq]
    exact List.mem_append_left _ hd
  rw [chars_append, chars_textCells, List.filter_append, hp, filter_spaced fun u hu => hws u (List.mem_append_left _ hu)]

theorem quoteMatchAt_of (hws : ∀ w ∈ ws, ∀ c ∈ w.text, isWordChar c = true) {target : List Char}
    (hfirst : ∃ c t, target = c :: t ∧ isWordChar c = true) (hlast : ∃ t d, target = t ++ [d] ∧ isWordChar d = true)
    (htext : joinWords (texts ws) = pre ++ target ++ post) :
    ∃ m, quoteMatchAt (marksFrom 0 ws) pre.length (pre.length + target.length) = some m ∧
      MatchOf (ws.flatMap wordCells) pre target m := by
  obtain ⟨c, rest, hfirst, hc⟩ := hfirst
  obtain ⟨t, d, rfl, hd⟩ := hlast
  have htext₁ : joinWords (texts ws) = pre ++ c :: (rest ++ post) := by
    rw [htext, hfirst, List.append_assoc]
    rfl
  have htext₂ : joinWords (texts ws) = (pre ++ t) ++ d :: post := by
    rw [htext, List.append_assoc, List.append_assoc, List.append_assoc]
    rfl
  obtain ⟨us₁, w₁, vs₁, p₁, q₁, hsplit₁, hword₁, hlen₁, before₁, behind₁, hcells₁, hchars₁⟩ := char_at hws hc htext₁
  obtain ⟨us₂, w₂, vs₂, p₂, q₂, hsplit₂, hword₂, hlen₂, before₂, behind₂, hcells₂, hchars₂⟩ := char_at hws hd htext₂
  have hmark₁ : wordMarkAt (marksFrom 0 ws) pre.length = some (markOf 0 us₁ w₁) := by
    rw [hsplit₁]
    refine wordMarkAt_markOf (by omega) ?_
    rw [hword₁, List.length_append, List.length_cons]
    omega
  have hmark₂ : wordMarkAt (marksFrom 0 ws) (pre.length + (t ++ [d]).length - 1) = some (markOf 0 us₂ w₂) := by
    rw [List.length_append] at hlen₂
    rw [hsplit₂, List.length_append, List.length_singleton]
    refine wordMarkAt_markOf (by omega) ?_
    rw [hword₂, List.length_append, List.length_cons]
    omega
  have htake₁ : w₁.text.take (pre.length - (0 + width (texts us₁))) = p₁ := by
    rw [hword₁, hlen₁, Nat.zero_add, Nat.add_sub_cancel_left, List.take_left]
  have htake₂ : w₂.text.take (pre.length + (t ++ [d]).length - (0 + width (texts us₂))) = p₂ ++ [d] := by
    rw [List.length_append] at hlen₂
    have hcut : pre.length + (t ++ [d]).length - (0 + width (texts us₂)) = (p₂ ++ [d]).length := by
      rw [List.length_append, List.length_append, List.length_singleton]
      omega
    have hword : w₂.text = (p₂ ++ [d]) ++ q₂ := by
      rw [hword₂, List.append_assoc]
      rfl
    rw [hword, hcut, List.take_left]
  refine ⟨⟨w₁.line, w₂.line, w₁.byte + (Utf8.encode p₁).length, w₂.byte + (Utf8.encode (p₂ ++ [d])).length⟩, ?_, ?_⟩
  · rw [quoteMatchAt, hmark₁, hmark₂]
    simp only [Option.bind_eq_bind, Option.bind_some, markOf, htake₁, htake₂]
  have hle : before₁.length ≤ before₂.length := by
    have h₁ := congrArg List.length hchars₁
    have h₂ := congrArg List.length hchars₂
    rw [chars, List.length_map] at h₁ h₂
    rw [h₁, h₂, List.filter_append, List.length_append]
    exact Nat.le_add_right _ _
  obtain ⟨here, hhere⟩ : before₁ <+: before₂ ++ [(⟨w₂.line, w₂.byte + (Utf8.encode p₂).length, d⟩ : Cell)] := by
    refine List.prefix_of_prefix_length_le ⟨_, hcells₁.symm⟩ ⟨behind₂, ?_⟩ ?_
    · rw [hcells₂, List.append_assoc]
      rfl
    · rw [List.length_append]
      omega
  have hcells : ws.flatMap wordCells = before₁ ++ here ++ behind₂ := by
    rw [hhere, hcells₂, List.append_assoc]
    rfl
  have hne : here ≠ [] := by
    rintro rfl
    have hlen := congrArg List.length hhere
    rw [List.append_nil, List.length_append, List.length_singleton] at hlen
    omega
  refine ⟨before₁, here, behind₂, hcells, hchars₁, ?_, ?_, ?_⟩
  · have hchars := congrArg chars hhere
    rw [chars_append, chars_append, hchars₁, hchars₂, List.filter_append, List.append_assoc] at hchars
    have hd' : [d].filter isWordChar = [d] := by simp [hd]
    rw [List.filter_append, hd']
    exact List.append_cancel_left hchars
  · refine ⟨⟨w₁.line, w₁.byte + (Utf8.encode p₁).length, c⟩, ?_, rfl, rfl⟩
    have hboth := hcells.symm.trans hcells₁
    rw [List.append_assoc] at hboth
    have hhead := congrArg List.head? (List.append_cancel_left hboth)
    rw [List.head?_append_of_ne_nil _ hne] at hhead
    exact hhead
  refine ⟨⟨w₂.line, w₂.byte + (Utf8.encode p₂).length, d⟩, ?_, rfl, ?_⟩
  · have hgetLast := congrArg List.getLast? hhere
    rw [List.getLast?_append_of_ne_nil _ hne, List.getLast?_concat] at hgetLast
    exact hgetLast
  · rw [Utf8.encode_append, List.length_append, Nat.add_assoc]

end AgentsRemember.Citations
