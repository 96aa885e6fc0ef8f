import AgentsRemember.Citations.SpanSound

/-!
# Edits touch nothing else

A document is edited faithfully when the lines and spans that are written are
the planned ones and everything else, every line break included, stays as it
was. One argument serves both writers: the fixer plans on the lines it writes,
the migration on lines cut at more breaks.
-/

namespace AgentsRemember.Citations

open Lib Lib.Lines

/-! ## Plans -/

/-- The edit of a line is all of it or some of its spans. -/
def Whole (edit : Edit) (n : Nat) : Prop := n ∈ edit.lines.keys

def Touched (edit : Edit) (n : Nat) : Prop := Whole edit n ∨ ∃ e ∈ edit.spans, e.1.line = n

/-- What the planners take from the lines that they read: spans with text, and a table's lines are kept out of the prose. -/
structure Planned (lines : List (List Char)) (edit : Edit) : Prop where
  spans : ∀ e ∈ edit.spans, 1 ≤ e.1.line ∧ ∃ l, lines[e.1.line - 1]? = some l ∧ InLine l e.1
  rows : ∀ n, Whole edit n → 1 ≤ n ∧ n ≤ lines.length
  disjoint : ∀ e ∈ edit.spans, ¬ Whole edit e.1.line

variable {lines : List (List Char)} {edit : Edit} {i n : Nat} {text line : List Char} {x : Char}

theorem Planned.inLine (h : Planned lines edit) {l : List Char} (hl : lines[i]? = some l) :
    ∀ e ∈ edit.spans, e.1.line = i + 1 → InLine l e.1 := by
  intro e he hline
  obtain ⟨-, l', hl', hin⟩ := h.spans e he
  rw [hline, Nat.add_sub_cancel, hl] at hl'
  exact Option.some.inj hl' ▸ hin

theorem Planned.bounds (h : Planned lines edit) (ht : Touched edit n) : 1 ≤ n ∧ n ≤ lines.length := by
  rcases ht with hw | ⟨e, he, rfl⟩
  · exact h.rows n hw
  obtain ⟨hpos, l, hl, -⟩ := h.spans e he
  obtain ⟨hlt, -⟩ := List.getElem?_eq_some_iff.mp hl
  omega

theorem Planned.append (h : Planned lines edit) (more : List (List Char)) : Planned (lines ++ more) edit := by
  refine ⟨fun e he => ?_, fun n hn => ?_, h.disjoint⟩
  · obtain ⟨hpos, l, hl, hin⟩ := h.spans e he
    obtain ⟨hlt, -⟩ := List.getElem?_eq_some_iff.mp hl
    exact ⟨hpos, l, by rw [List.getElem?_append_left hlt, hl], hin⟩
  have := h.rows n hn
  rw [List.length_append]
  omega

/-! ## What a faithful edit leaves -/

def Replaced (edit : Edit) (n : Nat) (line written : List Char) : Prop :=
  match edit.lines.get? n with
  | some text => written = text
  | none => ∃ ds : List SiteEdit, ds.Perm (atLine edit.spans n) ∧ patch (ds.map (patchOf line)) line = some written

def Framed (edit : Edit) : Nat → List (List Char × List Char) → List Char → Prop
  | _, [], written => written = []
  | n, e :: es, written =>
    ∃ line rest, Replaced edit n e.1 line ∧ Framed edit (n + 1) es rest ∧ written = line ++ e.2 ++ rest

def Placed (edit : Edit) (planned writer : List (List Char)) : Prop :=
  ∀ n, Touched edit n → (n - 1 < writer.length ∧ offset writer (n - 1) = offset planned (n - 1)) ∧
    (Whole edit n → writer[n - 1]? = planned[n - 1]?)

/-- A document's bytes after its edits; the planner cuts lines at the breaks of `p`. -/
def Faithful (p : Char → Bool) (text : List Char) (edit : Edit) (result : Option (List UInt8)) : Prop :=
  Placed edit (split p (universal text)) (documentLines (universal text)) ∧
    ∃ written, result = some (Utf8.encode written) ∧ Framed edit 1 (marked p text) written

/-- No carriage return, only newlines before the edited lines, and spans that keep apart. -/
structure Sound (p : Char → Bool) (text : List Char) (edit : Edit) : Prop where
  plain : '\r' ∉ text
  before : ∀ n, Touched edit n → ∀ e ∈ (marked p text).take (n - 1), e.2 = ['\n']
  whole : ∀ n, Whole edit n → ∀ e, (marked p text)[n - 1]? = some e → e.2 = [] ∨ e.2 = ['\n']
  apart : ∀ i l, (split p text)[i]? = some l → (atLine edit.spans (i + 1)).Pairwise (Apart l)

def lineEdit (edit : Edit) (i : Nat) (line : List Char) : List Char :=
  (edit.lines.get? (i + 1)).getD (spliceLine (atLine (edit.spans.mergeSort later) (i + 1)) line)

def editedText (edit : Edit) (text : List Char) : List Char :=
  ['\n'].intercalate ((documentLines text).mapIdx (lineEdit edit))

theorem migrateDocument_eq (hne : ¬ (edit.lines.entries = [] ∧ edit.spans = []))
    (h : ∀ n, Touched edit n → 1 ≤ n ∧ n ≤ (documentLines (universal text)).length) :
    migrateDocument (Utf8.encode text) edit = some (Utf8.encode (editedText edit (universal text))) := by
  have hread : readText (Utf8.encode text) = some (universal text) := by rw [readText, Utf8.decode_encode]; rfl
  have hspans := @foldlM_spliceAt (edit.spans.mergeSort later) (documentLines (universal text)) fun e he =>
    h _ (.inr ⟨e, List.mem_mergeSort.mp he, rfl⟩)
  have hrows := @foldlM_setLine edit.lines.entries
    ((documentLines (universal text)).mapIdx fun i l => spliceLine (atLine (edit.spans.mergeSort later) (i + 1)) l)
    edit.lines.nodup fun e he => by
      rw [List.length_mapIdx]
      exact h _ (.inl (List.mem_map_of_mem he))
  rw [migrateDocument, if_neg hne, hread]
  simp only [Option.bind_eq_bind, Option.bind_some, rewritten, hspans, hrows, List.mapIdx_mapIdx]
  rfl

theorem fixDocument_eq (bytes : List UInt8) (edits : List SiteEdit) :
    fixDocument bytes edits = migrateDocument bytes ⟨Dict.empty, edits⟩ := by
  rw [fixDocument, migrateDocument]
  by_cases h : edits = []
  · rw [if_pos h, if_pos ⟨rfl, h⟩]
  rw [if_neg h, if_neg fun hc => h hc.2]
  cases readText bytes with
  | none => rfl
  | some text => cases rewritten (documentLines text) edits <;> rfl

/-! ## Lines that are not edited -/

theorem atLine_eq_nil (h : ∀ e ∈ edit.spans, e.1.line ≠ n) : atLine edit.spans n = [] :=
  List.filter_eq_nil_iff.mpr fun e he => by simpa using h e he

theorem atLine_sorted_perm (edit : Edit) (n : Nat) : (atLine (edit.spans.mergeSort later) n).Perm (atLine edit.spans n) :=
  (List.mergeSort_perm edit.spans later).filter _

theorem get?_of_not_whole (h : ¬ Whole edit n) : edit.lines.get? n = none := Dict.get?_eq_none.mpr h

theorem replaced_untouched (h : ¬ Touched edit n) (line : List Char) : Replaced edit n line line := by
  rw [Replaced, get?_of_not_whole fun hw => h (.inl hw)]
  exact ⟨[], by rw [atLine_eq_nil fun e he hn => h (.inr ⟨e, he, hn⟩)], rfl⟩

theorem lineEdit_untouched (h : ¬ Touched edit (i + 1)) (line : List Char) : lineEdit edit i line = line := by
  have hnil : atLine edit.spans (i + 1) = [] := atLine_eq_nil fun e he hn => h (.inr ⟨e, he, hn⟩)
  have hsorted := (hnil ▸ atLine_sorted_perm edit (i + 1)).eq_nil
  rw [lineEdit, get?_of_not_whole fun hw => h (.inl hw), hsorted]
  rfl

theorem framed_untouched (h : ∀ n, ¬ Touched edit n) : ∀ (es : List (List Char × List Char)) (n : Nat),
    Framed edit n es (flatten es)
  | [], _ => rfl
  | e :: es, n => ⟨e.1, flatten es, replaced_untouched (h n) e.1, framed_untouched h es (n + 1), rfl⟩

theorem spliceLine_sorted (hin : ∀ e ∈ edit.spans, e.1.line = i + 1 → InLine line e.1)
    (hapart : (atLine edit.spans (i + 1)).Pairwise (Apart line)) :
    ∃ r, patch ((atLine (edit.spans.mergeSort later) (i + 1)).map (patchOf line)) line = some r ∧
      ∀ rest, spliceLine (atLine (edit.spans.mergeSort later) (i + 1)) (line ++ rest) = r ++ rest := by
  have hmem : ∀ e ∈ atLine (edit.spans.mergeSort later) (i + 1), InLine line e.1 := by
    intro e he
    obtain ⟨he, hline⟩ := List.mem_filter.mp ((atLine_sorted_perm edit (i + 1)).mem_iff.mp he)
    exact hin e he (of_decide_eq_true hline)
  have hpairs : (atLine (edit.spans.mergeSort later) (i + 1)).Pairwise (Apart line) :=
    ((atLine_sorted_perm edit (i + 1)).pairwise_iff apart_symm).mpr hapart
  have hsorted : (edit.spans.mergeSort later).Pairwise (later · ·) := by
    refine List.pairwise_mergeSort ?_ ?_ edit.spans
    · intro a b c
      simp only [later, Bool.or_eq_true, Bool.and_eq_true, decide_eq_true_eq]
      omega
    intro a b
    simp only [later, Bool.or_eq_true, Bool.and_eq_true, decide_eq_true_eq]
    omega
  have hbehind : (atLine (edit.spans.mergeSort later) (i + 1)).Pairwise
      fun e f => (place line f.1).2 ≤ (place line e.1).1 := by
    refine ((hsorted.filter _).and hpairs).imp_of_mem ?_
    rintro a b ha hb ⟨hlater, hapart⟩
    refine behind_of_start (hmem a ha) (hmem b hb) hapart ?_
    have hla := of_decide_eq_true (List.mem_filter.mp ha).2
    have hlb := of_decide_eq_true (List.mem_filter.mp hb).2
    simp only [later, Bool.or_eq_true, Bool.and_eq_true, decide_eq_true_eq] at hlater
    omega
  have hstop : ∀ e ∈ atLine (edit.spans.mergeSort later) (i + 1), (place line e.1).2 ≤ line.length := fun e he =>
    (place_le (hmem e he)).trans (hmem e he).stop
  obtain ⟨r, hr⟩ := exists_patch hmem (Nat.le_refl _) hstop hbehind
  refine ⟨r, by rwa [List.take_length] at hr, fun rest => ?_⟩
  have hsplice := foldl_spliced hmem (Nat.le_refl _) (.inl rfl) hr rest
  rwa [List.take_length] at hsplice

theorem replaced_lineEdit (hin : ∀ e ∈ edit.spans, e.1.line = i + 1 → InLine line e.1)
    (hapart : (atLine edit.spans (i + 1)).Pairwise (Apart line)) :
    Replaced edit (i + 1) line (lineEdit edit i line) := by
  rw [Replaced, lineEdit]
  cases edit.lines.get? (i + 1) with
  | some text => rfl
  | none =>
    obtain ⟨r, hr, hsplice⟩ := spliceLine_sorted hin hapart
    have hline := hsplice []
    rw [List.append_nil, List.append_nil] at hline
    exact ⟨_, atLine_sorted_perm edit (i + 1), by rw [hr, Option.getD_none, hline]⟩

theorem framed_mapIdx {g : Nat → List Char → List Char} : ∀ {es : List (List Char × List Char)} {n : Nat},
    (∀ i e, es[i]? = some e → Replaced edit (n + i) e.1 (g i e.1)) → Framed edit n es (flatten (es.mapIdx fun i e => (g i e.1, e.2)))
  | [], _, _ => rfl
  | e :: es, n, h => by
    rw [List.mapIdx_cons]
    refine ⟨g 0 e.1, _, h 0 e rfl, framed_mapIdx (g := fun i => g (i + 1)) fun i f hf => ?_, rfl⟩
    have := h (i + 1) f hf
    rwa [← Nat.add_assoc, Nat.add_right_comm] at this

theorem framed_line : ∀ {es : List (List Char × List Char)} {n : Nat} {written : List Char}, Framed edit n es written →
    ∀ i e, es[i]? = some e → ∃ line, Replaced edit (n + i) e.1 line
  | e :: es, n, written, ⟨line, rest, hline, hrest, _⟩, 0, f, hf => ⟨line, Option.some.inj hf ▸ hline⟩
  | e :: es, n, written, ⟨line, rest, hline, hrest, _⟩, i + 1, f, hf => by
    obtain ⟨l, hl⟩ := framed_line hrest i f hf
    exact ⟨l, by rwa [← Nat.add_assoc, Nat.add_right_comm]⟩

/-! ## Line breaks -/

theorem count_replaced {a b : List Char} (hx : x ∉ line) (ha : Replaced edit n line a) (hb : Replaced edit n line b) :
    a.count x = b.count x := by
  rw [Replaced] at ha hb
  cases hget : edit.lines.get? n with
  | some text =>
    rw [hget] at ha hb
    rw [ha, hb]
  | none =>
    rw [hget] at ha hb
    obtain ⟨ds, hds, hpatch⟩ := ha
    obtain ⟨fs, hfs, hpatch'⟩ := hb
    rw [count_patch x hpatch hx, count_patch x hpatch' hx]
    exact (((hds.trans hfs.symm).map _).map _).sum_nat

theorem count_framed : ∀ {es fs : List (List Char × List Char)} {n : Nat} {w v : List Char},
    Framed edit n es w → Framed edit n fs v → es.map Prod.fst = fs.map Prod.fst → (∀ e ∈ es, x ∉ e.1) →
      w.count x + (fs.map fun e => e.2.count x).sum = v.count x + (es.map fun e => e.2.count x).sum
  | [], [], n, w, v, hw, hv, _, _ => by
    obtain rfl : w = [] := hw
    obtain rfl : v = [] := hv
    rfl
  | e :: es, f :: fs, n, w, v, ⟨l, r, hl, hr, hw⟩, ⟨l', r', hl', hr', hv⟩, heq, hx => by
    obtain ⟨hline, hlines⟩ := List.cons.inj heq
    rw [List.forall_mem_cons] at hx
    have hrest := count_framed hr hr' hlines hx.2
    have hone := count_replaced hx.1 hl (hline ▸ hl')
    rw [hw, hv, List.map_cons, List.map_cons, List.sum_cons, List.sum_cons]
    simp only [List.count_append]
    omega
  | [], f :: fs, _, _, _, _, _, heq, _ => by cases heq
  | e :: es, [], _, _, _, _, _, heq, _ => by cases heq

section
variable {p : Char → Bool} (hp : p '\n' = true) {text : List Char} {edit : Edit}
include hp

theorem no_newline_marked : ∀ e ∈ marked p text, '\n' ∉ e.1 := by
  intro e he hc
  have := ((isMarked_marked p text e he).line _ hc).1
  rw [hp] at this
  cases this

theorem placed_iff (hplain : '\r' ∉ text) (hplan : Planned (split p text) edit) :
    Placed edit (split p text) (documentLines text) ↔
      (∀ n, Touched edit n → ∀ e ∈ (marked p text).take (n - 1), e.2 = ['\n']) ∧
        ∀ n, Whole edit n → ∀ e, (marked p text)[n - 1]? = some e → e.2 = [] ∨ e.2 = ['\n'] := by
  have hflat := flatten_marked p text
  have hfst := fst_marked p hplain
  have hclosed := closed_marked p hplain
  have hlines := @no_newline_marked p hp text
  have hlt : ∀ n, Touched edit n → n - 1 < (marked p text).length := by
    intro n hn
    have := hplan.bounds hn
    rw [← hfst, List.length_map] at this
    omega
  have hoffset : ∀ n, Touched edit n → ((n - 1 < (documentLines text).length ∧
      offset (documentLines text) (n - 1) = offset (split p text) (n - 1)) ↔
        ∀ e ∈ (marked p text).take (n - 1), e.2 = ['\n']) := by
    intro n hn
    have := offset_split_iff hclosed hlines (n - 1) (hlt n hn)
    rwa [hflat, hfst] at this
  have hwhole : ∀ n, (∀ e ∈ (marked p text).take (n - 1), e.2 = ['\n']) → ∀ e, (marked p text)[n - 1]? = some e →
      ((documentLines text)[n - 1]? = (split p text)[n - 1]? ↔ e.2 = [] ∨ e.2 = ['\n']) := by
    intro n hbefore e he
    have := line_split_iff hclosed hlines (n - 1) hbefore e he
    rw [hflat] at this
    rw [← hfst, List.getElem?_map, he]
    exact this
  constructor
  · intro h
    have hbefore : ∀ n, Touched edit n → ∀ e ∈ (marked p text).take (n - 1), e.2 = ['\n'] := fun n hn =>
      (hoffset n hn).mp (h n hn).1
    exact ⟨hbefore, fun n hn e he => (hwhole n (hbefore n (.inl hn)) e he).mp ((h n (.inl hn)).2 hn)⟩
  rintro ⟨hbefore, hends⟩ n hn
  refine ⟨(hoffset n hn).mpr (hbefore n hn), fun hw => ?_⟩
  obtain ⟨e, he⟩ : ∃ e, (marked p text)[n - 1]? = some e := ⟨_, List.getElem?_eq_getElem (hlt n hn)⟩
  exact (hwhole n (hbefore n hn) e he).mpr (hends n hw e he)

theorem framed_of_sound (hplan : Planned (split p text) edit) (h : Sound p text edit) :
    Framed edit 1 (marked p text) (editedText edit text) := by
  have hfst := fst_marked p h.plain
  have hline : ∀ {i : Nat} {e : List Char × List Char}, (marked p text)[i]? = some e → (split p text)[i]? = some e.1 := by
    intro i e he
    rw [← hfst, List.getElem?_map, he]
    rfl
  have hedits : Edits (lineEdit edit) (marked p text) fun i => Touched edit (i + 1) := by
    refine ⟨fun i hi => lineEdit_untouched hi, fun i hi j hj e he => ?_, fun i e he hne hnl rest => ?_⟩
    · refine h.before (i + 1) hi e ?_
      rw [Nat.add_sub_cancel]
      exact List.mem_of_getElem? ((List.getElem?_take_of_lt hj).trans he)
    have hnot : ¬ Whole edit (i + 1) := fun hw => (h.whole (i + 1) hw e he).elim hne hnl
    obtain ⟨r, -, hsplice⟩ := spliceLine_sorted (hplan.inLine (hline he)) (h.apart i e.1 (hline he))
    have halone := hsplice []
    rw [List.append_nil, List.append_nil] at halone
    rw [lineEdit, lineEdit, get?_of_not_whole hnot, Option.getD_none, Option.getD_none, halone, hsplice rest]
  have hjoin := join_edited (closed_marked p h.plain) (no_newline_marked hp) hedits
  rw [flatten_marked] at hjoin
  rw [editedText, documentLines, hjoin]
  refine framed_mapIdx fun i e he => ?_
  rw [Nat.add_comm]
  exact replaced_lineEdit (hplan.inLine (hline he)) (h.apart i e.1 (hline he))

theorem sound_universal (hplan : Planned (split p (universal text)) edit) {written : List Char}
    (hplaced : Placed edit (split p (universal text)) (documentLines (universal text)))
    (hframed : Framed edit 1 (marked p text) written) : Sound p (universal text) edit := by
  obtain ⟨hbefore, hwhole⟩ := (placed_iff hp (no_cr_universal text) hplan).mp hplaced
  refine ⟨no_cr_universal text, hbefore, hwhole, fun i l hl => ?_⟩
  rw [fst_marked_universal hp, List.getElem?_map] at hl
  obtain ⟨e, he, rfl⟩ := Option.map_eq_some_iff.mp hl
  by_cases hw : Whole edit (i + 1)
  · rw [atLine_eq_nil fun s hs hline => hplan.disjoint s hs (hline ▸ hw)]
    exact .nil
  obtain ⟨line, hline⟩ := framed_line hframed i e he
  rw [Nat.add_comm, Replaced, get?_of_not_whole hw] at hline
  obtain ⟨ds, hds, hpatch⟩ := hline
  exact (hds.pairwise_iff apart_symm).mp (apart_of_patch hpatch)

theorem plain_of_framed {v : List Char} (hw : Framed edit 1 (marked p text) v) (hv : Framed edit 1 (marked p (universal text)) v) :
    '\r' ∉ text := by
  have hlines : (marked p text).map Prod.fst = (marked p (universal text)).map Prod.fst := by
    rw [← fst_marked_universal hp, fst_marked p (no_cr_universal text)]
  have hpure : ∀ e ∈ marked p text, '\r' ∉ e.1 := fun e he hc => ((isMarked_marked p text e he).line _ hc).2 rfl
  have hcount := count_framed hw hv hlines hpure
  have hnone : ((marked p (universal text)).map fun e => e.2.count '\r').sum = 0 := by
    rw [List.sum_eq_zero_iff_forall_eq_nat]
    intro k hk
    obtain ⟨e, he, rfl⟩ := List.mem_map.mp hk
    refine List.count_eq_zero.mpr fun hc => no_cr_universal text ?_
    rw [← flatten_marked p (universal text)]
    exact List.mem_flatMap.mpr ⟨e, he, List.mem_append_right _ hc⟩
  have hzero : ((marked p text).map fun e => e.2.count '\r').sum = 0 := by omega
  intro hr
  rw [← flatten_marked p text] at hr
  obtain ⟨e, he, hr⟩ := List.mem_flatMap.mp hr
  have hmark := List.sum_eq_zero_iff_forall_eq_nat.mp hzero _ (List.mem_map_of_mem he)
  exact (List.mem_append.mp hr).elim (hpure e he) (List.count_eq_zero.mp hmark)

theorem faithful_iff (hplan : Planned (split p (universal text)) edit) :
    Faithful p text edit (migrateDocument (Utf8.encode text) edit) ↔
      (edit.lines.entries = [] ∧ edit.spans = []) ∨ Sound p text edit := by
  by_cases hempty : edit.lines.entries = [] ∧ edit.spans = []
  · refine iff_of_true ?_ (.inl hempty)
    have hnone : ∀ n, ¬ Touched edit n := by
      rintro n (hw | ⟨e, he, -⟩)
      · rw [Whole, Dict.keys, hempty.1] at hw
        cases hw
      · rw [hempty.2] at he
        cases he
    refine ⟨fun n hn => absurd hn (hnone n), text, if_pos hempty, ?_⟩
    have := framed_untouched hnone (marked p text) 1
    rwa [flatten_marked] at this
  rw [or_iff_right hempty]
  constructor
  · rintro ⟨hplaced, written, hwritten, hframed⟩
    have hsound := sound_universal hp hplan hplaced hframed
    have hlines : ∀ n, Touched edit n → 1 ≤ n ∧ n ≤ (documentLines (universal text)).length := fun n hn => by
      have := hplan.bounds hn
      have := (hplaced n hn).1.1
      omega
    have hresult := migrateDocument_eq hempty hlines
    rw [hwritten] at hresult
    obtain rfl := Utf8.encode_injective (Option.some.inj hresult)
    have hplain := plain_of_framed hp hframed (framed_of_sound hp hplan hsound)
    rwa [universal_of_no_cr hplain] at hsound
  · intro h
    have hu := universal_of_no_cr h.plain
    have hplaced : Placed edit (split p (universal text)) (documentLines (universal text)) := by
      rw [hu] at hplan ⊢
      exact (placed_iff hp h.plain hplan).mpr ⟨h.before, h.whole⟩
    refine ⟨hplaced, editedText edit text, ?_, framed_of_sound hp (hu ▸ hplan) h⟩
    have hlines : ∀ n, Touched edit n → 1 ≤ n ∧ n ≤ (documentLines (universal text)).length := fun n hn => by
      have := hplan.bounds hn
      have := (hplaced n hn).1.1
      omega
    rw [migrateDocument_eq hempty hlines, hu]

end

/-! ## The two writers -/

theorem documentLines_planned {edits : List SiteEdit} (h : Planned (documentLines text) ⟨Dict.empty, edits⟩)
    (hplain : '\r' ∉ text)
    (hapart : ∀ i l, (documentLines text)[i]? = some l → (atLine edits (i + 1)).Pairwise (Apart l)) :
    Sound isNewline text ⟨Dict.empty, edits⟩ := by
  refine ⟨hplain, fun n hn e he => ?_, nofun, hapart⟩
  have hlt : n - 1 < (marked isNewline text).length := by
    have hfst := congrArg List.length (fst_marked isNewline hplain)
    have := h.bounds hn
    rw [List.length_map] at hfst
    rw [documentLines, ← hfst] at this
    omega
  obtain ⟨c, hc⟩ := closed_take (closed_marked isNewline hplain) hlt e he
  rcases (isMarked_marked isNewline text e (List.mem_of_mem_take he)).mark with hm | hm | ⟨d, hd, hm⟩
  · rw [hm] at hc
    cases hc
  · rw [hm] at hc
    cases hc
  have hd' : e.2 = [d] := hd
  rcases hm with hm | rfl
  · rw [hd', of_decide_eq_true hm]
  refine absurd ?_ hplain
  rw [← flatten_marked isNewline text]
  refine List.mem_flatMap.mpr ⟨e, List.mem_of_mem_take he, List.mem_append_right _ ?_⟩
  rw [hd']
  exact List.mem_singleton_self _

theorem sourceLines_planned (h : Planned (sourceLines text) edit) (hplain : '\r' ∉ text) :
    Planned (split isLineBreak text) edit := by
  obtain ⟨more, hmore⟩ := breakLines_prefix isLineBreak text
  rw [sourceLines, splitlines_of_no_cr hplain] at h
  rw [← hmore]
  exact h.append more

/-- A document loses nothing but its planned spans and lines exactly when it has no carriage return, when the spans of a line
keep apart and when, for a migration, no other break than a newline stands before an edited line or ends a line of a table. -/
theorem edits_touch_nothing_else (text : List Char) :
    (∀ edits, Planned (documentLines (universal text)) ⟨Dict.empty, edits⟩ →
      (Faithful isNewline text ⟨Dict.empty, edits⟩ (fixDocument (Utf8.encode text) edits) ↔
        edits = [] ∨ ('\r' ∉ text ∧ ∀ i l, (documentLines text)[i]? = some l → (atLine edits (i + 1)).Pairwise (Apart l)))) ∧
    ∀ edit, Planned (sourceLines (universal text)) edit →
      (Faithful isLineBreak text edit (migrateDocument (Utf8.encode text) edit) ↔
        (edit.lines.entries = [] ∧ edit.spans = []) ∨ Sound isLineBreak text edit) := by
  constructor
  · intro edits hplan
    rw [fixDocument_eq, faithful_iff (by decide) hplan]
    refine or_congr ⟨fun h => h.2, fun h => ⟨rfl, h⟩⟩ ⟨fun h => ⟨h.plain, h.apart⟩, fun h => ?_⟩
    rw [universal_of_no_cr h.1] at hplan
    exact documentLines_planned hplan h.1 h.2
  · intro edit hplan
    exact faithful_iff (by decide) (sourceLines_planned hplan (no_cr_universal text))

def citedLine : List Char := "cit:([`f`], a.py:1)".toList

def citedEdit : SiteEdit := (⟨1, 11, 18⟩, "a.py:4".toList)

theorem inLine_cited : InLine citedLine citedEdit.1 := ⟨by decide, by decide⟩

theorem planned_cited (h : lines[0]? = some citedLine) : Planned lines ⟨Dict.empty, [citedEdit]⟩ := by
  refine ⟨fun e he => ?_, nofun, fun e he => nofun⟩
  obtain rfl := List.mem_singleton.mp he
  exact ⟨Nat.le_refl 1, citedLine, h, inLine_cited⟩

theorem edits_touch_nothing_else_cited :
    Faithful isNewline (citedLine ++ ['\n']) ⟨Dict.empty, [citedEdit]⟩ (fixDocument (Utf8.encode (citedLine ++ ['\n'])) [citedEdit]) := by
  refine ((edits_touch_nothing_else (citedLine ++ ['\n'])).1 [citedEdit] (planned_cited rfl)).mpr (.inr ⟨by decide, fun i l _ => ?_⟩)
  exact (List.pairwise_singleton _ _).sublist List.filter_sublist

/-- A fix of a file with carriage returns rewrites all its line ends, and a migration edits the wrong line behind a form feed. -/
theorem crlf_and_form_feed :
    (Planned (documentLines (universal (citedLine ++ ['\r', '\n']))) ⟨Dict.empty, [citedEdit]⟩ ∧
      ¬ Faithful isNewline (citedLine ++ ['\r', '\n']) ⟨Dict.empty, [citedEdit]⟩
        (fixDocument (Utf8.encode (citedLine ++ ['\r', '\n'])) [citedEdit])) ∧
    (Planned (sourceLines (universal "a\x0cb\nf (L3)\ntail".toList)) ⟨Dict.empty, [(⟨3, 0, 6⟩, "cit".toList)]⟩ ∧
      ¬ Faithful isLineBreak "a\x0cb\nf (L3)\ntail".toList ⟨Dict.empty, [(⟨3, 0, 6⟩, "cit".toList)]⟩
        (migrateDocument (Utf8.encode "a\x0cb\nf (L3)\ntail".toList) ⟨Dict.empty, [(⟨3, 0, 6⟩, "cit".toList)]⟩)) := by
  have hcrlf : Planned (documentLines (universal (citedLine ++ ['\r', '\n']))) ⟨Dict.empty, [citedEdit]⟩ := planned_cited rfl
  have hfeed : Planned (sourceLines (universal "a\x0cb\nf (L3)\ntail".toList)) ⟨Dict.empty, [(⟨3, 0, 6⟩, "cit".toList)]⟩ := by
    refine ⟨fun e he => ?_, nofun, fun e he => nofun⟩
    obtain rfl := List.mem_singleton.mp he
    exact ⟨by decide, "f (L3)".toList, by decide, by decide, by decide⟩
  refine ⟨⟨hcrlf, fun h => ?_⟩, hfeed, fun h => ?_⟩
  · rw [fixDocument_eq] at h
    have hsound := ((faithful_iff (by decide) hcrlf).mp h).resolve_left fun he => nomatch he.2
    exact absurd hsound.plain (by decide)
  have hplan := sourceLines_planned hfeed (no_cr_universal _)
  have hsound := ((faithful_iff (by decide) hplan).mp h).resolve_left fun he => nomatch he.2
  have hmark := hsound.before 3 (.inr ⟨_, List.mem_singleton_self _, rfl⟩) ("a".toList, ['\x0c']) (by decide)
  exact absurd hmark (by decide)

end AgentsRemember.Citations
