import AgentsRemember.Lib.FrontMatter
import AgentsRemember.Style.SectionsSound

/-!
# Sorting the Update History of a text

A text is read as its lines and written back with line feeds. So nothing is lost
where line feeds are its only breaks, or where there is nothing to sort; and
nothing is raised where no timestamp of a bullet leaves the calendar when it is
converted to UTC.
-/

namespace AgentsRemember.History

open Lib Lines

/-- The lines of a text as the checker and the fixer read them. -/
def linesOf (text : List Char) : List Line := splitlines (universal text)

def joined (lines : List Line) (trailingNewline : Bool) : List Char :=
  ['\n'].intercalate lines ++ (if trailingNewline then ['\n'] else [])

/-- Line feeds are the only line breaks of the text. -/
def Plain (text : List Char) : Prop := ∀ c ∈ text, isLineBreak c = true → c = '\n'

section
variable (digit : Char → Bool) (parse : String → Option Stamp)

def Sortable (lines : List Line) : Prop := ∀ head blocks, Blocks lines head blocks → ¬ Left digit parse blocks

/-- The text is what it was and its sections are in order, or it has the same lines with its sections sorted. -/
def Kept (text text' : List Char) : Prop :=
  (text' = text ∧ DocSorted digit parse (linesOf text) (linesOf text)) ∨
    ∃ new trailing, text = joined (linesOf text) trailing ∧ text' = joined new trailing ∧
      DocSorted digit parse (linesOf text) new

def NoOrderFinding (lines : List Line) : Prop :=
  ∀ relative touched, ∀ range ∈ updateHistorySections lines, Sortable digit parse (slice lines range) →
    ∃ findings, sectionFindings digit parse relative touched lines range = some findings ∧
      ∀ f ∈ findings, f.code ≠ orderCode

/-- The fix is stable and lossless: nothing raises, the text is kept up to the order of blocks, a second run changes
nothing, and the checker has no ordering finding afterwards. -/
structure Lossless (text : List Char) : Prop where
  checked : ∀ relative touched, (checkFile digit parse relative touched text).isSome
  fixed : ∃ text' result, fixFile digit parse false text = some (text', result) ∧ Kept digit parse text text' ∧
    (∃ again, fixFile digit parse false text' = some (text', again) ∧ again.changed = false) ∧
    NoOrderFinding digit parse (linesOf text')

end

/-! ## Texts and lines -/

variable {l : Line} {lines : List Line} {text : List Char} {trailing : Bool}

theorem intercalate_cons (h : lines ≠ []) :
    ['\n'].intercalate (l :: lines) = l ++ '\n' :: ['\n'].intercalate lines := by
  obtain ⟨m, ms, rfl⟩ := List.exists_cons_of_ne_nil h
  rw [List.intercalate_cons_cons, List.append_assoc]
  rfl

theorem joined_breakLines : ∀ {cs : List Char}, Plain cs →
    joined (breakLines isLineBreak cs) (decide (cs.getLast? = some '\n')) = cs
  | [], _ => rfl
  | c :: cs, h => by
    have hrest := @joined_breakLines cs fun d hd => h d (List.mem_cons_of_mem c hd)
    rw [breakLines]
    split
    · rename_i hc
      obtain rfl := h c List.mem_cons_self hc
      cases cs with
      | nil => rfl
      | cons d ds =>
        have hne : breakLines isLineBreak (d :: ds) ≠ [] := fun hnil => by cases eq_nil_of_breakLines hnil
        rw [joined, intercalate_cons hne, List.getLast?_cons_cons, List.nil_append, List.cons_append]
        exact congrArg ('\n' :: ·) hrest
    rename_i hc
    cases cs with
    | nil =>
      have hne : c ≠ '\n' := by
        rintro rfl
        exact hc rfl
      simp [breakLines, consHead, joined, hne]
    | cons d ds =>
      cases hlines : breakLines isLineBreak (d :: ds) with
      | nil => cases eq_nil_of_breakLines hlines
      | cons m ms =>
        rw [hlines] at hrest
        rw [consHead, List.getLast?_cons_cons]
        refine Eq.trans ?_ (congrArg (c :: ·) hrest)
        cases ms <;> rfl

theorem Plain.no_cr (h : Plain text) : '\r' ∉ text := fun hmem =>
  absurd (h '\r' hmem (by decide)) (by decide)

theorem Plain.joined (h : Plain text) : text = History.joined (linesOf text) (decide (text.getLast? = some '\n')) := by
  rw [linesOf, universal_of_no_cr h.no_cr, splitlines_of_no_cr h.no_cr, joined_breakLines h]

theorem linesOf_pure (text : List Char) : ∀ l ∈ linesOf text, ∀ c ∈ l, isLineBreak c = false :=
  fun l hl => breakLines_pure l hl

theorem plain_of_joined (hpure : ∀ l ∈ lines, ∀ c ∈ l, isLineBreak c = false) : Plain (joined lines trailing) := by
  intro c hc hbreak
  rw [joined, List.mem_append] at hc
  rcases hc with hc | hc
  · rcases FrontMatter.mem_intercalate hc with hc | ⟨l, hl, hcl⟩
    · exact List.mem_singleton.mp hc
    · rw [hpure l hl c hcl] at hbreak
      cases hbreak
  split at hc
  · exact List.mem_singleton.mp hc
  · cases hc

theorem intercalate_concat (l : Line) : ∀ lines : List Line,
    ['\n'].intercalate (lines ++ [l]) = unlines '\n' lines ++ l
  | [] => List.intercalate_singleton
  | m :: lines => by
    have hne : lines ++ [l] ≠ [] := by simp
    rw [List.cons_append, intercalate_cons hne, intercalate_concat l lines, unlines, unlines, List.flatMap_cons]
    simp

theorem flatMap_split (h : ∀ l ∈ lines, ∀ c ∈ l, isLineBreak c = false) :
    lines.flatMap (split isLineBreak) = lines := by
  rw [List.flatMap_congr fun l hl => split_of_all (h l hl)]
  exact List.flatMap_pure_eq_map id lines |>.trans (List.map_id lines)

theorem linesOf_joined (h : ∀ l ∈ lines, ∀ c ∈ l, isLineBreak c = false) :
    linesOf (joined lines trailing) = breakLines isLineBreak (joined lines trailing) := by
  have hcr := (@plain_of_joined lines trailing h).no_cr
  rw [linesOf, universal_of_no_cr hcr, splitlines_of_no_cr hcr]

theorem linesOf_concat (h : ∀ m ∈ lines ++ [l], ∀ c ∈ m, isLineBreak c = false) :
    linesOf (joined (lines ++ [l]) true) = lines ++ [l] ∧
      linesOf (joined (lines ++ [l]) false) = if l = [] then lines else lines ++ [l] := by
  have hlines : ∀ m ∈ lines, ∀ c ∈ m, isLineBreak c = false := fun m hm => h m (List.mem_append_left _ hm)
  have hl : ∀ c ∈ l, isLineBreak c = false := h l (List.mem_append_right _ (List.mem_singleton_self l))
  constructor
  · have htext : joined (lines ++ [l]) true = unlines '\n' (lines ++ [l]) := by
      rw [joined, intercalate_concat, unlines_append, List.append_assoc]
      simp [unlines]
    rw [linesOf_joined h, htext, breakLines_unlines _ rfl, flatMap_split h]
  have htext : joined (lines ++ [l]) false = unlines '\n' lines ++ l := by
    rw [joined, intercalate_concat]
    exact List.append_nil _
  rw [linesOf_joined h, htext, breakLines_unlines_append _ rfl, flatMap_split hlines]
  split
  · rename_i hnil
    rw [hnil]
    exact List.append_nil _
  · rename_i hne
    rw [breakLines_of_all hne hl]

/-! ## An empty last line -/

variable {digit : Char → Bool} {parse : String → Option Stamp}

attribute [local simp] blockTimestampText blockTimestamp

theorem blockTimestampText_append {block : Block} (h : IsBlock block) (more : List Line) :
    blockTimestampText digit (block ++ more) = blockTimestampText digit block := by
  obtain ⟨l, rest, rfl, -, -⟩ := h
  rfl

variable {b b' : Block} {blocks : List Block} {lines : List Line} {relative text : List Char} {touched : Nat → Bool}

theorem blockTimestamp_congr (h : blockTimestampText digit b = blockTimestampText digit b') :
    blockTimestamp digit parse b = blockTimestamp digit parse b' := by
  rw [blockTimestamp, blockTimestamp, h]

theorem left_concat (h : blockTimestampText digit b = blockTimestampText digit b') :
    Left digit parse (blocks ++ [b]) ↔ Left digit parse (blocks ++ [b']) := by
  have hmixes : mixesTimestampFrames digit (blocks ++ [b]) = mixesTimestampFrames digit (blocks ++ [b']) := by
    rw [mixesTimestampFrames, mixesTimestampFrames, List.filterMap_append, List.filterMap_append, List.filterMap_cons,
      List.filterMap_cons, h]
  have htime := @blockTimestamp_congr digit parse b b' h
  rw [Left, Left, hmixes]
  simp only [List.mem_append, List.mem_singleton, or_and_right, exists_or, exists_eq_left, htime]
  simp

theorem newestFirst_concat (h : blockTimestampText digit b = blockTimestampText digit b')
    (hn : NewestFirst digit parse (blocks ++ [b])) : NewestFirst digit parse (blocks ++ [b']) := by
  have hvalue : blockValue digit parse b' = blockValue digit parse b := by
    rw [blockValue, blockValue, blockTimestamp_congr h]
  rw [NewestFirst, List.pairwise_append] at hn ⊢
  refine ⟨hn.1, List.pairwise_singleton _ _, ?_⟩
  intro a ha x hx
  rw [List.mem_singleton.mp hx, NotOlder, hvalue]
  exact hn.2.2 a ha b (List.mem_singleton_self b)

theorem InOrder.dropBlank (h : InOrder digit parse (lines ++ [[]])) : InOrder digit parse lines := by
  intro head blocks hblocks
  rcases List.eq_nil_or_concat blocks with rfl | ⟨bs, b, rfl⟩
  · exact .inl (.inl rfl)
  rw [List.concat_eq_append] at hblocks ⊢
  have hb := hblocks.blocks b (List.mem_append_right _ (List.mem_singleton_self b))
  have hmore : Blocks (lines ++ [[]]) head (bs ++ [b ++ [[]]]) := by
    refine ⟨?_, hblocks.head, ?_⟩
    · rw [hblocks.lines]
      simp
    intro block hblock
    rcases List.mem_append.mp hblock with hblock | hblock
    · exact hblocks.blocks block (List.mem_append_left _ hblock)
    obtain ⟨l, rest, rfl, hl, hrest⟩ := hb
    rw [List.mem_singleton.mp hblock]
    refine ⟨l, rest ++ [[]], rfl, hl, ?_⟩
    intro x hx
    rcases List.mem_append.mp hx with hx | hx
    · exact hrest x hx
    · rw [List.mem_singleton.mp hx]
      rfl
  have htext := @blockTimestampText_append digit b hb [[]]
  exact (h head _ hmore).imp (left_concat htext).mp (newestFirst_concat htext)

theorem IsSection.blank {before : List Line} {title : Line} {body rest : List Line}
    (h : IsSection lines before title body rest) :
    IsSection (lines ++ [[]]) before title body (rest ++ [[]]) ∨
      rest = [] ∧ IsSection (lines ++ [[]]) before title (body ++ [[]]) [] := by
  cases rest with
  | nil =>
    refine .inr ⟨rfl, ?_, h.title, ?_, by simp⟩
    · rw [h.lines]
      simp
    intro l hl
    rcases List.mem_append.mp hl with hl | hl
    · exact h.body l hl
    · rw [List.mem_singleton.mp hl]
      rfl
  | cons l rest =>
    refine .inl ⟨?_, h.title, h.body, h.rest⟩
    rw [h.lines]
    simp

theorem InOrderDoc.dropBlank (h : InOrderDoc digit parse (lines ++ [[]])) : InOrderDoc digit parse lines := by
  intro before title body rest hsection
  rcases hsection.blank with hmore | ⟨-, hmore⟩
  · exact h _ _ _ _ hmore
  · exact (h _ _ _ _ hmore).dropBlank

theorem TimelyDoc.dropBlank (h : TimelyDoc digit parse (lines ++ [[]])) : TimelyDoc digit parse lines := by
  intro before title body rest hsection
  rcases hsection.blank with hmore | ⟨-, hmore⟩
  · exact h _ _ _ _ hmore
  · exact fun l hl => h _ _ _ _ hmore l (List.mem_append_left _ hl)

theorem written_lines {trailing : Bool} (hpure : ∀ l ∈ lines, ∀ c ∈ l, isLineBreak c = false)
    (htrailing : trailing = true → lines ≠ []) (horder : InOrderDoc digit parse lines)
    (htimely : TimelyDoc digit parse lines) :
    InOrderDoc digit parse (linesOf (joined lines trailing)) ∧ TimelyDoc digit parse (linesOf (joined lines trailing)) := by
  rcases List.eq_nil_or_concat lines with rfl | ⟨init, l, rfl⟩
  · cases trailing with
    | true => exact absurd rfl (htrailing rfl)
    | false => exact ⟨horder, htimely⟩
  rw [List.concat_eq_append] at *
  obtain ⟨htrue, hfalse⟩ := linesOf_concat hpure
  cases trailing with
  | true =>
    rw [htrue]
    exact ⟨horder, htimely⟩
  | false =>
    rw [hfalse]
    split
    · rename_i hnil
      rw [hnil] at horder htimely
      exact ⟨horder.dropBlank, htimely.dropBlank⟩
    · exact ⟨horder, htimely⟩

/-! ## The checker -/

theorem parseEntries_isSome : ∀ {lines : List Line} {n : Nat},
    (parseEntries digit parse n lines).isSome = true ↔ Timely digit parse lines
  | [], n => by simp [parseEntries, Timely]
  | l :: lines, n => by
    have hrest := @parseEntries_isSome lines (n + 1)
    rw [Timely, List.forall_mem_cons, ← Timely, ← hrest, parseEntries]
    cases hbody : bulletBody l with
    | none => simp [hbody]
    | some body =>
      dsimp only
      cases hstamp : parseTimestamp digit body with
      | none => simp [hbody, hstamp]
      | some timestamp =>
        dsimp only
        cases hvalue : datetimeValue digit parse timestamp <;>
          simp [hbody, hstamp, hvalue]

theorem parseEntries_values : ∀ {lines : List Line} {n : Nat} {entries : List HistoryEntry},
    parseEntries digit parse n lines = some entries →
    (∀ l ∈ lines, isBullet l = true → blockTimestamp digit parse [l] ≠ .invalid) →
      entries.map (·.value) = (lines.filter isBullet).map fun l => blockValue digit parse [l]
  | [], n, entries, h, _ => by
    obtain rfl := Option.some.inj h
    rfl
  | l :: lines, n, entries, h, hvalid => by
    have hrest := fun entries h => @parseEntries_values lines (n + 1) entries h fun x hx =>
      hvalid x (List.mem_cons_of_mem l hx)
    have hl := hvalid l List.mem_cons_self
    rw [parseEntries] at h
    cases hbody : bulletBody l with
    | none =>
      rw [hbody] at h
      have hbullet : isBullet l = false := by rw [isBullet, hbody]; rfl
      rw [List.filter_cons, if_neg (by rw [hbullet]; decide)]
      exact hrest entries h
    | some body =>
      have hbullet : isBullet l = true := by rw [isBullet, hbody]; rfl
      have hstamp := hl hbullet
      rw [hbody] at h
      dsimp only at h
      rw [List.filter_cons, if_pos hbullet, List.map_cons]
      cases htext : parseTimestamp digit body with
      | none => exact absurd (by simp [hbody, htext]) hstamp
      | some timestamp =>
        rw [htext] at h
        dsimp only at h
        have hblock : blockTimestamp digit parse [l] = datetimeValue digit parse timestamp := by
          simp [hbody, htext]
        cases hvalue : datetimeValue digit parse timestamp with
        | overflow =>
          rw [hvalue] at h
          cases h
        | invalid => exact absurd (hblock.trans hvalue) hstamp
        | moment value =>
          rw [hvalue] at h
          obtain ⟨tail, htail, rfl⟩ := Option.map_eq_some_iff.mp h
          rw [List.map_cons, hrest tail htail, blockValue, hblock, hvalue]

theorem filter_bullets {head : List Line} (h : Blocks lines head blocks) :
    (lines.filter isBullet).map (fun l => blockValue digit parse [l]) = blocks.map (blockValue digit parse) := by
  have hhead : head.filter isBullet = [] := List.filter_eq_nil_iff.mpr fun l hl => by rw [h.head l hl]; decide
  rw [h.lines, List.filter_append, hhead, List.nil_append]
  have hblocks := h.blocks
  clear h hhead
  induction blocks with
  | nil => rfl
  | cons block blocks ih =>
    obtain ⟨l, rest, rfl, hl, hrest⟩ := hblocks _ List.mem_cons_self
    have hnone : rest.filter isBullet = [] := List.filter_eq_nil_iff.mpr fun x hx => by rw [hrest x hx]; decide
    rw [List.flatten_cons, List.cons_append, List.filter_cons, if_pos hl, List.filter_append, hnone, List.nil_append,
      List.map_cons, List.map_cons, ih fun b hb => hblocks b (List.mem_cons_of_mem _ hb)]
    rfl

theorem entryFindings_code {entry : HistoryEntry} {previous : Option HistoryEntry} {touched : Bool}
    (h : ∀ p ∈ previous, entry.value ≤ p.value) :
    ∀ f ∈ entryFindings entry relative previous touched, f.code ≠ orderCode := by
  intro f hf
  rw [entryFindings.eq_def] at hf
  split at hf
  · rw [List.mem_singleton.mp hf]
    simp [missingFinding, orderCode]
  split at hf
  · rw [List.mem_singleton.mp hf]
    simp [invalidFinding, orderCode]
  rcases List.mem_append.mp hf with hf | hf
  · split at hf
    · rw [List.mem_singleton.mp hf]
      simp [naiveFinding, orderCode]
    · cases hf
  cases hprevious : previous with
  | none =>
    rw [hprevious] at hf
    cases hf
  | some p =>
    rw [hprevious] at hf
    dsimp only at hf
    rw [if_neg (by have := h p hprevious; omega)] at hf
    cases hf

theorem orderFindings_code : ∀ {entries : List HistoryEntry}
    {previous : Bool → Option HistoryEntry}, entries.Pairwise (fun a b => b.value ≤ a.value) →
    (∀ frame, ∀ p ∈ previous frame, ∀ e ∈ entries, e.value ≤ p.value) →
      ∀ f ∈ orderFindings relative touched previous entries, f.code ≠ orderCode
  | [], _, _, _, f, hf => by cases hf
  | entry :: entries, previous, hsorted, hprevious, f, hf => by
    obtain ⟨hhead, htail⟩ := List.pairwise_cons.mp hsorted
    rw [orderFindings, List.mem_append] at hf
    rcases hf with hf | hf
    · exact entryFindings_code (fun p hp => hprevious _ p hp entry List.mem_cons_self) f hf
    refine orderFindings_code htail ?_ f hf
    intro frame p hp e he
    split at hp
    · dsimp only at hp
      split at hp
      · obtain rfl := Option.some.inj hp
        exact hhead e he
      · exact hprevious frame p hp e (List.mem_cons_of_mem entry he)
    · exact hprevious frame p hp e (List.mem_cons_of_mem entry he)

theorem noOrderFinding (horder : InOrderDoc digit parse lines) (htimely : TimelyDoc digit parse lines) :
    NoOrderFinding digit parse lines := by
  intro relative touched range hrange hsortable
  obtain ⟨before, title, body, rest, hsection, rfl⟩ := mem_sectionsFrom.mp hrange
  rw [Nat.zero_add, hsection.slice] at hsortable
  rw [Nat.zero_add, sectionFindings, hsection.slice]
  obtain ⟨head, blocks, hblocks⟩ := exists_blocks body
  have hleft := hsortable head blocks hblocks
  have hnewest := (horder _ _ _ _ hsection head blocks hblocks).resolve_left hleft
  obtain ⟨entries, hentries⟩ := Option.isSome_iff_exists.mp
    ((@parseEntries_isSome digit parse body (before.length + 1 + 1)).mpr (htimely _ _ _ _ hsection))
  refine ⟨_, by rw [hentries]; rfl, ?_⟩
  have hvalid : ∀ l ∈ body, isBullet l = true → blockTimestamp digit parse [l] ≠ .invalid := by
    intro l hl hbullet hinvalid
    rw [hblocks.lines] at hl
    rcases List.mem_append.mp hl with hl | hl
    · rw [hblocks.head l hl] at hbullet
      cases hbullet
    obtain ⟨block, hblock, hl⟩ := List.mem_flatten.mp hl
    obtain ⟨first, others, rfl, -, hothers⟩ := hblocks.blocks block hblock
    rcases List.mem_cons.mp hl with rfl | hl
    · exact hleft (.inr (.inl ⟨_, hblock, hinvalid⟩))
    · rw [hothers l hl] at hbullet
      cases hbullet
  have hvalues := (parseEntries_values hentries hvalid).trans (filter_bullets hblocks)
  have hsorted : entries.Pairwise fun a b => b.value ≤ a.value := by
    have hpair : (blocks.map (blockValue digit parse)).Pairwise fun a b => b ≤ a := List.pairwise_map.mpr hnewest
    rw [← hvalues] at hpair
    exact List.pairwise_map.mp hpair
  exact orderFindings_code hsorted (by simp)

theorem checkFile_isSome :
    (checkFile digit parse relative touched text).isSome = true ↔ TimelyDoc digit parse (linesOf text) := by
  rw [checkFile, Option.isSome_map, isSome_mapM]
  constructor
  · intro h before title body rest hsection
    have hone := h _ (mem_sectionsFrom.mpr ⟨before, title, body, rest, hsection, rfl⟩)
    have hslice : slice (splitlines (universal text)) (before.length + 1, before.length + 1 + body.length) = body :=
      hsection.slice
    rw [Nat.zero_add, sectionFindings, Option.isSome_map, hslice] at hone
    exact parseEntries_isSome.mp hone
  intro h range hrange
  obtain ⟨before, title, body, rest, hsection, rfl⟩ := mem_sectionsFrom.mp hrange
  rw [Nat.zero_add, sectionFindings, Option.isSome_map]
  have hslice : slice (splitlines (universal text)) (before.length + 1, before.length + 1 + body.length) = body :=
    hsection.slice
  rw [hslice]
  exact parseEntries_isSome.mpr (h _ _ _ _ hsection)

/-! ## The fix -/

theorem DocSorted.of_inOrder {new : List Line} (h : DocSorted digit parse lines new) (hsame : new = lines) :
    DocSorted digit parse lines lines := by
  rw [hsame] at h
  exact h

theorem fixFile_inOrder (horder : InOrderDoc digit parse (linesOf text))
    (htimely : TimelyDoc digit parse (linesOf text)) :
    ∃ result, fixFile digit parse false text = some (text, result) ∧ result.changed = false ∧
      DocSorted digit parse (linesOf text) (linesOf text) := by
  obtain ⟨new, changed, skipped, hsort, hdoc, hchanged, hkeep⟩ := sortUpdateHistorySections_spec htimely
  have hsame := hkeep horder
  have hfalse : changed = false := by
    rw [← Bool.not_eq_true, hchanged]
    exact not_not.mpr hsame
  refine ⟨⟨changed, skipped⟩, ?_, hfalse, hdoc.of_inOrder hsame⟩
  have hsort' : sortUpdateHistorySections digit parse (splitlines (universal text)) = some ⟨new, changed, skipped⟩ := hsort
  rw [fixFile, hsort', hfalse]
  rfl

/-- The fix is stable and lossless exactly where no timestamp of a bullet leaves the calendar, and line feeds are the
only line breaks or every section is in order already. -/
theorem fix_lossless (digit : Char → Bool) (parse : String → Option Stamp) (text : List Char) :
    Lossless digit parse text ↔
      TimelyDoc digit parse (linesOf text) ∧ (Plain text ∨ InOrderDoc digit parse (linesOf text)) := by
  constructor
  · intro h
    refine ⟨checkFile_isSome.mp (h.checked [] fun _ => false), ?_⟩
    obtain ⟨text', result, -, ⟨rfl, hdoc⟩ | ⟨new, trailing, htext, -, -⟩, -, -⟩ := h.fixed
    · exact .inr hdoc.inOrder
    · rw [htext]
      exact .inl (plain_of_joined (linesOf_pure text))
  rintro ⟨htimely, h⟩
  refine ⟨fun _ _ => checkFile_isSome.mpr htimely, ?_⟩
  by_cases horder : InOrderDoc digit parse (linesOf text)
  · obtain ⟨result, hfix, hsame, hdoc⟩ := fixFile_inOrder horder htimely
    exact ⟨text, result, hfix, .inl ⟨rfl, hdoc⟩, ⟨result, hfix, hsame⟩, noOrderFinding horder htimely⟩
  have hplain := h.resolve_right horder
  obtain ⟨new, changed, skipped, hsort, hdoc, hchanged, -⟩ := sortUpdateHistorySections_spec htimely
  have htrue : changed = true := by
    rw [hchanged]
    intro hsame
    have hin := hdoc.inOrder
    rw [hsame] at hin
    exact horder hin
  have hsort' : sortUpdateHistorySections digit parse (splitlines (universal text)) = some ⟨new, changed, skipped⟩ :=
    hsort
  have htext := hplain.joined
  have hpure : ∀ l ∈ new, ∀ c ∈ l, isLineBreak c = false := fun l hl =>
    linesOf_pure text l (hdoc.perm.mem_iff.mp hl)
  have htrailing : decide (text.getLast? = some '\n') = true → new ≠ [] := by
    rintro hlast rfl
    have hnil := List.nil_perm.mp hdoc.perm
    have hempty : text = [] := by
      rw [linesOf, splitlines_of_no_cr (by rw [universal_of_no_cr hplain.no_cr]; exact hplain.no_cr),
        universal_of_no_cr hplain.no_cr] at hnil
      exact eq_nil_of_breakLines hnil
    rw [hempty] at hlast
    cases hlast
  obtain ⟨horder', htimely'⟩ := written_lines hpure htrailing hdoc.inOrder (hdoc.timely htimely)
  obtain ⟨again, hagain, hsame, -⟩ := fixFile_inOrder horder' htimely'
  refine ⟨_, ⟨changed, skipped⟩, ?_, .inr ⟨new, _, htext, rfl, hdoc⟩, ⟨again, hagain, hsame⟩,
    noOrderFinding horder' htimely'⟩
  rw [fixFile, hsort', htrue, universal_of_no_cr hplain.no_cr]
  simp [joined]

/-- A bullet of the first year, one hour ahead of UTC. -/
def firstYear : List Char := "## Update History\n- 0001-01-01T00:00+01:00 start\n".toList

/-- Two bullets to be sorted, and a form feed before the section. -/
def formFeed : List Char :=
  'a' :: Char.ofNat 12 :: "\n## Update History\n- 2024-01-01T00:00Z a\n- 2025-01-01T00:00Z b\n".toList

/-- The checker and the fixer raise, and the form feed is lost. -/
theorem first_year_and_form_feed :
    (¬ Lossless Char.isDigit fromisoformat firstYear ∧
      checkFile Char.isDigit fromisoformat [] (fun _ => false) firstYear = none ∧
      fixFile Char.isDigit fromisoformat false firstYear = none) ∧
    ¬ Lossless Char.isDigit fromisoformat formFeed ∧
      fixFile Char.isDigit fromisoformat false formFeed =
        some ("a\n\n## Update History\n- 2025-01-01T00:00Z b\n- 2024-01-01T00:00Z a\n".toList, ⟨true, false⟩) := by
  have hcheck : checkFile Char.isDigit fromisoformat [] (fun _ => false) firstYear = none := by decide +kernel
  have hraise : fixFile Char.isDigit fromisoformat false firstYear = none := by decide +kernel
  have hfix : fixFile Char.isDigit fromisoformat false formFeed =
      some ("a\n\n## Update History\n- 2025-01-01T00:00Z b\n- 2024-01-01T00:00Z a\n".toList, ⟨true, false⟩) := by
    decide +kernel
  refine ⟨⟨?_, hcheck, hraise⟩, ?_, hfix⟩
  · intro h
    have hsome := h.checked [] fun _ => false
    rw [hcheck] at hsome
    cases hsome
  intro h
  obtain ⟨text', result, hfixed, hkept, -, -⟩ := h.fixed
  rw [hfix] at hfixed
  obtain ⟨rfl, -⟩ := Prod.mk.inj (Option.some.inj hfixed)
  rcases hkept with ⟨hsame, -⟩ | ⟨new, trailing, htext, -, -⟩
  · exact absurd hsame (by decide)
  cases trailing
  · exact absurd htext (by decide +kernel)
  · exact absurd htext (by decide +kernel)

end AgentsRemember.History
