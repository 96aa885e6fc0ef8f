import AgentsRemember.Style.History

/-!
# The blocks of a section

A section is its lines before the first bullet and then a block for each bullet.
A section that is sorted keeps its head and has its blocks newest first, blocks
of one time in their old order; every other section is left as it is.
-/

namespace AgentsRemember.History

open Lib Lines

def IsBlock (block : Block) : Prop := ∃ l rest, block = l :: rest ∧ isBullet l = true ∧ ∀ x ∈ rest, isBullet x = false

structure Blocks (lines head : List Line) (blocks : List Block) : Prop where
  lines : lines = head ++ blocks.flatten
  head : ∀ l ∈ head, isBullet l = false
  blocks : ∀ block ∈ blocks, IsBlock block

theorem bulletBlocks_head : ∀ {head rest old : List Line}, (∀ l ∈ head, isBullet l = false) →
    bulletBlocks (head ++ rest) old none [] = bulletBlocks rest (old ++ head) none []
  | [], rest, old, _ => by rw [List.nil_append, List.append_nil]
  | l :: head, rest, old, h => by
    rw [List.cons_append, bulletBlocks, if_neg (by rw [h l List.mem_cons_self]; decide)]
    rw [bulletBlocks_head fun x hx => h x (List.mem_cons_of_mem l hx), List.append_assoc, List.singleton_append]

theorem bulletBlocks_rest : ∀ {more rest head : List Line} {block : Block} {blocks : List Block},
    (∀ x ∈ more, isBullet x = false) →
    bulletBlocks (more ++ rest) head (some block) blocks = bulletBlocks rest head (some (block ++ more)) blocks
  | [], rest, head, block, blocks, _ => by rw [List.nil_append, List.append_nil]
  | l :: more, rest, head, block, blocks, h => by
    rw [List.cons_append, bulletBlocks, if_neg (by rw [h l List.mem_cons_self]; decide)]
    rw [bulletBlocks_rest fun x hx => h x (List.mem_cons_of_mem l hx), List.append_assoc, List.singleton_append]

variable {l : Line} {lines head body rest : List Line}

theorem bulletBlocks_bullet (h : isBullet l = true) (lines head : List Line) (current : Option Block)
    (blocks : List Block) :
    bulletBlocks (l :: lines) head current blocks = bulletBlocks lines head (some [l]) (blocks ++ current.toList) := by
  cases current <;> rw [bulletBlocks, if_pos h]

theorem bulletBlocks_flatten : ∀ {blocks old : List Block} {head : List Line} {current : Option Block},
    (∀ block ∈ blocks, IsBlock block) →
    bulletBlocks blocks.flatten head current old = (head, old ++ current.toList ++ blocks)
  | [], old, head, current, _ => by
    rw [List.append_nil]
    rfl
  | block :: blocks, old, head, current, h => by
    obtain ⟨l, rest, rfl, hl, hrest⟩ := h block List.mem_cons_self
    rw [List.flatten_cons, List.cons_append, bulletBlocks_bullet hl, bulletBlocks_rest hrest,
      bulletBlocks_flatten fun b hb => h b (List.mem_cons_of_mem _ hb)]
    simp

theorem Blocks.parsed {blocks : List Block} (h : Blocks lines head blocks) :
    parseBulletBlocks lines = (head, blocks) := by
  rw [h.lines, parseBulletBlocks, bulletBlocks_head h.head, bulletBlocks_flatten h.blocks]
  simp

theorem exists_blocks : ∀ lines : List Line, ∃ head blocks, Blocks lines head blocks
  | [] => ⟨[], [], rfl, by simp, by simp⟩
  | l :: lines => by
    obtain ⟨head, blocks, h⟩ := exists_blocks lines
    cases hl : isBullet l with
    | false =>
      refine ⟨l :: head, blocks, by rw [h.lines]; rfl, ?_, h.blocks⟩
      intro x hx
      rcases List.mem_cons.mp hx with rfl | hx
      · exact hl
      · exact h.head x hx
    | true =>
      refine ⟨[], (l :: head) :: blocks, by rw [h.lines]; rfl, by simp, ?_⟩
      intro block hblock
      rcases List.mem_cons.mp hblock with rfl | hblock
      · exact ⟨l, head, rfl, hl, h.head⟩
      · exact h.blocks block hblock

theorem Blocks.of_parsed (lines : List Line) :
    Blocks lines (parseBulletBlocks lines).1 (parseBulletBlocks lines).2 := by
  obtain ⟨head, blocks, h⟩ := exists_blocks lines
  rw [h.parsed]
  exact h

theorem Blocks.unique {head' : List Line} {blocks blocks' : List Block} (h : Blocks lines head blocks)
    (h' : Blocks lines head' blocks') : head' = head ∧ blocks' = blocks := by
  have heq := h.parsed.symm.trans h'.parsed
  exact ⟨(congrArg Prod.fst heq).symm, (congrArg Prod.snd heq).symm⟩

/-! ## Sorting -/

section
variable (digit : Char → Bool) (parse : String → Option Stamp)

/-- No bullet has a timestamp that leaves the calendar. -/
def Timely (lines : List Line) : Prop := ∀ l ∈ lines, blockTimestamp digit parse [l] ≠ .overflow

/-- The blocks are not sorted: there are none, one has no valid timestamp, or two frames are mixed. -/
def Left (blocks : List Block) : Prop :=
  blocks = [] ∨ (∃ block ∈ blocks, blockTimestamp digit parse block = .invalid) ∨ mixesTimestampFrames digit blocks = true

def NotOlder (a b : Block) : Prop := blockValue digit parse b ≤ blockValue digit parse a

instance : DecidableRel (NotOlder digit parse) := fun a b => Int.decLe (blockValue digit parse b) (blockValue digit parse a)

instance : IsTrans Block (NotOlder digit parse) := ⟨fun _ _ _ hab hbc => Int.le_trans hbc hab⟩

instance : Std.Total (NotOlder digit parse) := ⟨fun a b => Int.le_total (blockValue digit parse b) (blockValue digit parse a)⟩

def NewestFirst (blocks : List Block) : Prop := blocks.Pairwise (NotOlder digit parse)

structure Resorted (old new : List Block) : Prop where
  perm : new.Perm old
  newest : NewestFirst digit parse new
  stable : ∀ v, (new.filter fun b => blockValue digit parse b = v) = old.filter fun b => blockValue digit parse b = v

def SectionSorted (old new : List Line) : Prop :=
  ∃ head blocks, Blocks old head blocks ∧
    ((Left digit parse blocks ∧ new = old) ∨
      (¬ Left digit parse blocks ∧ ∃ blocks', Resorted digit parse blocks blocks' ∧ new = head ++ blocks'.flatten))

def InOrder (lines : List Line) : Prop :=
  ∀ head blocks, Blocks lines head blocks → Left digit parse blocks ∨ NewestFirst digit parse blocks

variable {digit parse}

theorem map_orderedInsert_left {α β : Type} {r : α → α → Prop} {s : β → β → Prop} [DecidableRel r] [DecidableRel s]
    {f : α → β} {a : α} : ∀ {l : List α}, (∀ b ∈ l, r a b ↔ s (f a) (f b)) →
      (l.orderedInsert r a).map f = (l.map f).orderedInsert s (f a)
  | [], _ => rfl
  | b :: l, h => by
    have hb := h b List.mem_cons_self
    have hrest := map_orderedInsert_left fun x hx => h x (List.mem_cons_of_mem b hx)
    rw [List.orderedInsert_cons, List.map_cons, List.orderedInsert_cons]
    by_cases hab : r a b
    · rw [if_pos hab, if_pos (hb.mp hab)]
      rfl
    · rw [if_neg hab, if_neg (mt hb.mpr hab), List.map_cons, hrest]

theorem map_sorted_zipIdx : ∀ (blocks : List Block) (n : Nat),
    ((blocks.zipIdx n).insertionSort fun a b => sortKey digit parse b ≤ sortKey digit parse a).map Prod.fst =
      blocks.insertionSort (NotOlder digit parse)
  | [], _ => rfl
  | block :: blocks, n => by
    rw [List.zipIdx_cons, List.insertionSort_cons, List.insertionSort_cons, ← map_sorted_zipIdx blocks (n + 1)]
    refine map_orderedInsert_left fun b hb => ?_
    rw [List.mem_insertionSort] at hb
    have hplace := List.le_snd_of_mem_zipIdx hb
    rw [sortKey, sortKey, Prod.Lex.toLex_le_toLex, NotOlder]
    omega

theorem sortedBlocks_eq (blocks : List Block) :
    sortedBlocks digit parse blocks = blocks.insertionSort (NotOlder digit parse) := map_sorted_zipIdx blocks 0

theorem resorted_sortedBlocks (blocks : List Block) : Resorted digit parse blocks (sortedBlocks digit parse blocks) := by
  rw [sortedBlocks_eq]
  have hperm := List.perm_insertionSort (NotOlder digit parse) blocks
  refine ⟨hperm, List.pairwise_insertionSort _ blocks, ?_⟩
  intro v
  have hsame : (blocks.filter fun b => blockValue digit parse b = v).Pairwise (NotOlder digit parse) := by
    refine List.Pairwise.imp_of_mem (fun {a b} ha hb _ => ?_) (List.pairwise_of_forall fun _ _ => trivial)
    have ha' := of_decide_eq_true (List.mem_filter.mp ha).2
    have hb' := of_decide_eq_true (List.mem_filter.mp hb).2
    rw [NotOlder, ha', hb']
  have hsub := (List.sublist_insertionSort hsame List.filter_sublist).filter fun b => blockValue digit parse b = v
  rw [List.filter_filter] at hsub
  simp only [Bool.and_self] at hsub
  exact (hsub.eq_of_length (hperm.filter _).length_eq.symm).symm

theorem anyUndated_spec : ∀ {blocks : List Block}, (∀ b ∈ blocks, blockTimestamp digit parse b ≠ .overflow) →
    anyUndated digit parse blocks = some (decide (∃ b ∈ blocks, blockTimestamp digit parse b = .invalid))
  | [], _ => by simp [anyUndated]
  | block :: blocks, h => by
    have hrest := @anyUndated_spec blocks fun b hb => h b (List.mem_cons_of_mem block hb)
    rw [anyUndated]
    cases hblock : blockTimestamp digit parse block with
    | overflow => exact absurd hblock (h block List.mem_cons_self)
    | invalid => simp [hblock]
    | moment value => simp [hblock, hrest]

theorem blockTimestamp_head {block : Block} (h : IsBlock block) : ∃ l ∈ block,
    blockTimestamp digit parse block = blockTimestamp digit parse [l] := by
  obtain ⟨l, rest, rfl, -, -⟩ := h
  exact ⟨l, List.mem_cons_self, rfl⟩

variable {lines head old new : List Line}

theorem Timely.blocks {blocks : List Block} (h : Timely digit parse lines) (hblocks : Blocks lines head blocks) :
    ∀ b ∈ blocks, blockTimestamp digit parse b ≠ .overflow := by
  intro b hb
  obtain ⟨l, hl, heq⟩ := @blockTimestamp_head digit parse b (hblocks.blocks b hb)
  rw [heq]
  refine h l ?_
  rw [hblocks.lines]
  exact List.mem_append_right _ (List.mem_flatten.mpr ⟨b, hb, hl⟩)

theorem sortSection_spec (h : Timely digit parse lines) : ∃ new skipped,
    sortSection digit parse lines = some (new, skipped) ∧ SectionSorted digit parse lines new ∧
      (InOrder digit parse lines → new = lines) := by
  have hblocks := Blocks.of_parsed lines
  have hany := anyUndated_spec (h.blocks hblocks)
  rw [sortSection]
  generalize parseBulletBlocks lines = parsed at hblocks hany ⊢
  obtain ⟨head, blocks⟩ := parsed
  dsimp only at hblocks hany ⊢
  by_cases hnil : blocks = []
  · rw [if_pos hnil]
    exact ⟨lines, false, rfl, ⟨head, blocks, hblocks, .inl ⟨.inl hnil, rfl⟩⟩, fun _ => rfl⟩
  rw [if_neg hnil, hany]
  by_cases hundated : ∃ b ∈ blocks, blockTimestamp digit parse b = .invalid
  · rw [decide_eq_true hundated]
    exact ⟨lines, true, rfl, ⟨head, blocks, hblocks, .inl ⟨.inr (.inl hundated), rfl⟩⟩, fun _ => rfl⟩
  rw [decide_eq_false hundated]
  dsimp only
  by_cases hmixes : mixesTimestampFrames digit blocks = true
  · rw [if_pos hmixes]
    exact ⟨lines, true, rfl, ⟨head, blocks, hblocks, .inl ⟨.inr (.inr hmixes), rfl⟩⟩, fun _ => rfl⟩
  rw [if_neg hmixes]
  have hleft : ¬ Left digit parse blocks := by
    rintro (h | h | h)
    · exact hnil h
    · exact hundated h
    · exact hmixes h
  refine ⟨_, false, rfl, ⟨head, blocks, hblocks, .inr ⟨hleft, _, resorted_sortedBlocks blocks, rfl⟩⟩, ?_⟩
  intro horder
  have hnewest := (horder head blocks hblocks).resolve_left hleft
  have hsame : sortedBlocks digit parse blocks = blocks := by
    rw [sortedBlocks_eq]
    exact List.Pairwise.insertionSort_eq hnewest
  rw [hsame, hblocks.lines]

theorem Blocks.resorted {blocks blocks' : List Block} (h : Blocks lines head blocks)
    (hr : Resorted digit parse blocks blocks') : Blocks (head ++ blocks'.flatten) head blocks' :=
  ⟨rfl, h.head, fun b hb => h.blocks b (hr.perm.mem_iff.mp hb)⟩

theorem SectionSorted.perm (h : SectionSorted digit parse old new) : new.Perm old := by
  obtain ⟨head, blocks, hblocks, ⟨-, rfl⟩ | ⟨-, blocks', hr, rfl⟩⟩ := h
  · exact .refl _
  · rw [hblocks.lines]
    exact hr.perm.flatten.append_left head

theorem SectionSorted.inOrder (h : SectionSorted digit parse old new) : InOrder digit parse new := by
  intro head' blocks' hnew
  obtain ⟨head, blocks, hblocks, ⟨hleft, rfl⟩ | ⟨-, resorted, hr, rfl⟩⟩ := h
  · obtain ⟨-, rfl⟩ := hblocks.unique hnew
    exact .inl hleft
  · obtain ⟨-, rfl⟩ := (hblocks.resorted hr).unique hnew
    exact .inr hr.newest

theorem Timely.perm (h : Timely digit parse old) (hp : new.Perm old) : Timely digit parse new :=
  fun l hl => h l (hp.mem_iff.mp hl)

end

/-! ## The sections of a document

Sorting a section moves no heading of its level, so the sections stand where
they stood. The sections are sorted from the last to the first, and each finds
the lines before it as they were.
-/

structure IsSection (lines before : List Line) (title : Line) (body rest : List Line) : Prop where
  lines : lines = before ++ title :: (body ++ rest)
  title : isHistory title = true
  body : ∀ l ∈ body, endsSection l = false
  rest : ∀ l ∈ rest.head?, endsSection l = true

theorem endsSection_of_isHistory (h : isHistory l = true) : endsSection l = true := by
  rw [isHistory] at h
  rw [endsSection]
  split at h
  · rename_i marks title heq
    rw [Bool.and_eq_true, decide_eq_true_eq] at h
    rw [h.1]
    rfl
  · cases h

theorem takeWhile_body (hbody : ∀ l ∈ body, endsSection l = false) (hrest : ∀ l ∈ rest.head?, endsSection l = true) :
    (body ++ rest).takeWhile (fun l => !endsSection l) = body := by
  rw [List.takeWhile_append_of_pos fun l hl => by rw [hbody l hl]; rfl]
  cases rest with
  | nil => exact List.append_nil body
  | cons l rest =>
    have hl := hrest l rfl
    rw [List.takeWhile_cons_of_neg (by rw [hl]; decide), List.append_nil]

theorem sectionsFrom_append (hbody : ∀ l ∈ body, endsSection l = false) : ∀ (n : Nat) (rest : List Line),
    sectionsFrom n (body ++ rest) = sectionsFrom (n + body.length) rest := by
  induction body with
  | nil => intro n rest; rfl
  | cons l body ih =>
    intro n rest
    have hl : isHistory l = false := by
      rw [← Bool.not_eq_true]
      intro h
      have hends := endsSection_of_isHistory h
      rw [hbody l List.mem_cons_self] at hends
      cases hends
    rw [List.cons_append, sectionsFrom, if_neg (by rw [hl]; decide), ih fun x hx => hbody x (List.mem_cons_of_mem l hx),
      List.length_cons]
    congr 1
    omega

theorem exists_body (lines : List Line) : ∃ body rest, lines = body ++ rest ∧ (∀ l ∈ body, endsSection l = false) ∧
    ∀ l ∈ rest.head?, endsSection l = true := by
  refine ⟨lines.takeWhile fun l => !endsSection l, lines.dropWhile fun l => !endsSection l,
    List.takeWhile_append_dropWhile.symm, ?_, ?_⟩
  · intro l hl
    have hone := List.mem_takeWhile_imp hl
    simpa using hone
  intro l hl
  have hone := List.head?_dropWhile_not (fun l => !endsSection l) lines
  rw [hl] at hone
  simpa using hone

theorem mem_sectionsFrom : ∀ {lines : List Line} {n : Nat} {range : Nat × Nat}, range ∈ sectionsFrom n lines ↔
    ∃ before title body rest, IsSection lines before title body rest ∧
      range = (n + before.length + 1, n + before.length + 1 + body.length)
  | [], n, range => by
    constructor
    · intro h
      cases h
    rintro ⟨before, title, body, rest, h, -⟩
    have hlines := h.lines
    cases before <;> cases hlines
  | l :: lines, n, range => by
    have hlater : range ∈ sectionsFrom (n + 1) lines ↔ ∃ before title body rest, IsSection (l :: lines) (l :: before) title body rest ∧
        range = (n + (l :: before).length + 1, n + (l :: before).length + 1 + body.length) := by
      rw [mem_sectionsFrom]
      constructor
      · rintro ⟨before, title, body, rest, h, rfl⟩
        refine ⟨before, title, body, rest, ⟨congrArg (l :: ·) h.lines, h.title, h.body, h.rest⟩, ?_⟩
        rw [List.length_cons]
        congr 1 <;> omega
      rintro ⟨before, title, body, rest, h, rfl⟩
      refine ⟨before, title, body, rest, ⟨(List.cons.inj h.lines).2, h.title, h.body, h.rest⟩, ?_⟩
      rw [List.length_cons]
      congr 1 <;> omega
    rw [sectionsFrom]
    split
    · rename_i hl
      obtain ⟨body, rest, rfl, hbody, hrest⟩ := exists_body lines
      rw [takeWhile_body hbody hrest, List.mem_cons, hlater]
      constructor
      · rintro (rfl | ⟨before, title, body', rest', h, heq⟩)
        · exact ⟨[], l, body, rest, ⟨rfl, hl, hbody, hrest⟩, rfl⟩
        · exact ⟨l :: before, title, body', rest', h, heq⟩
      rintro ⟨before, title, body', rest', h, heq⟩
      cases before with
      | nil =>
        obtain ⟨-, hlines⟩ := List.cons.inj h.lines
        have hbodies := congrArg (List.takeWhile fun l => !endsSection l) hlines
        rw [takeWhile_body hbody hrest, takeWhile_body h.body h.rest] at hbodies
        rw [heq, hbodies]
        exact .inl rfl
      | cons x before =>
        obtain ⟨rfl, -⟩ := List.cons.inj h.lines
        exact .inr ⟨before, title, body', rest', h, heq⟩
    · rename_i hl
      rw [hlater]
      constructor
      · rintro ⟨before, title, body, rest, h, heq⟩
        exact ⟨l :: before, title, body, rest, h, heq⟩
      rintro ⟨before, title, body, rest, h, heq⟩
      cases before with
      | nil =>
        obtain ⟨rfl, -⟩ := List.cons.inj h.lines
        exact absurd h.title hl
      | cons x before =>
        obtain ⟨rfl, -⟩ := List.cons.inj h.lines
        exact ⟨before, title, body, rest, h, heq⟩

theorem IsSection.slice {before : List Line} {title : Line} (h : IsSection lines before title body rest) :
    History.slice lines (before.length + 1, before.length + 1 + body.length) = body := by
  have hlines : lines = (before ++ [title]) ++ body ++ rest := by
    rw [h.lines]
    simp
  have hlen : (before ++ [title]).length = before.length + 1 := by rw [List.length_append, List.length_singleton]
  rw [History.slice, hlines, ← hlen]
  dsimp only
  rw [← List.length_append, List.take_left, List.drop_left]

variable (digit : Char → Bool) (parse : String → Option Stamp)

inductive DocSorted : List Line → List Line → Prop
  | nil : DocSorted [] []
  | line {l : Line} {old new : List Line} : isHistory l = false → DocSorted old new → DocSorted (l :: old) (l :: new)
  | section {l : Line} {body body' old new : List Line} : isHistory l = true → (∀ x ∈ body, endsSection x = false) →
      (∀ x ∈ old.head?, endsSection x = true) → SectionSorted digit parse body body' → DocSorted old new →
      DocSorted (l :: (body ++ old)) (l :: (body' ++ new))

/-- No bullet of a section has a timestamp that leaves the calendar. -/
def TimelyDoc (lines : List Line) : Prop :=
  ∀ before title body rest, IsSection lines before title body rest → Timely digit parse body

/-- Every section is left or newest first. -/
def InOrderDoc (lines : List Line) : Prop :=
  ∀ before title body rest, IsSection lines before title body rest → InOrder digit parse body

variable {digit parse}

variable {old new : List Line}

theorem DocSorted.head? (h : DocSorted digit parse old new) : new.head? = old.head? := by
  cases h <;> rfl

theorem DocSorted.perm (h : DocSorted digit parse old new) : new.Perm old := by
  induction h with
  | nil => exact .refl _
  | line _ _ ih => exact ih.cons _
  | «section» _ _ _ hs _ ih => exact (hs.perm.append ih).cons _

theorem DocSorted.of_section (h : DocSorted digit parse old new) :
    ∀ {before title body' rest}, IsSection new before title body' rest →
      ∃ before₀ body rest₀, IsSection old before₀ title body rest₀ ∧ SectionSorted digit parse body body' := by
  induction h with
  | nil =>
    intro before title body' rest h
    have hlines := h.lines
    cases before <;> cases hlines
  | @line l old new hl _ ih =>
    intro before title body' rest h
    cases before with
    | nil =>
      obtain ⟨rfl, -⟩ := List.cons.inj h.lines
      rw [h.title] at hl
      cases hl
    | cons x before =>
      obtain ⟨rfl, hlines⟩ := List.cons.inj h.lines
      obtain ⟨before₀, body, rest₀, hold, hs⟩ := ih ⟨hlines, h.title, h.body, h.rest⟩
      exact ⟨l :: before₀, body, rest₀, { hold with lines := congrArg (l :: ·) hold.lines }, hs⟩
  | @«section» l body body' old new hl hbody hrest hs hdoc ih =>
    intro before title found rest h
    have hbody' : ∀ x ∈ body', endsSection x = false := fun x hx => hbody x (hs.perm.mem_iff.mp hx)
    have hrest' : ∀ x ∈ new.head?, endsSection x = true := by
      rw [hdoc.head?]
      exact hrest
    cases before with
    | nil =>
      obtain ⟨rfl, hlines⟩ := List.cons.inj h.lines
      have hbodies := congrArg (List.takeWhile fun l => !endsSection l) hlines
      rw [takeWhile_body hbody' hrest', takeWhile_body h.body h.rest] at hbodies
      rw [← hbodies]
      exact ⟨[], body, old, ⟨rfl, hl, hbody, hrest⟩, hs⟩
    | cons x before =>
      obtain ⟨rfl, hlines⟩ := List.cons.inj h.lines
      -- the title is not among the lines of the section before it
      obtain ⟨between, rfl, hnew⟩ : ∃ between, before = body' ++ between ∧ new = between ++ title :: (found ++ rest) := by
        rcases List.append_eq_append_iff.mp hlines with ⟨t, rfl, ht⟩ | ⟨t, rfl, ht⟩
        · exact ⟨t, rfl, ht⟩
        cases t with
        | nil => exact ⟨[], by simp, by simpa using ht.symm⟩
        | cons y t =>
          obtain ⟨rfl, -⟩ := List.cons.inj ht
          have hends := hbody' title (by simp)
          rw [endsSection_of_isHistory h.title] at hends
          cases hends
      obtain ⟨before₀, body₀, rest₀, hold, hs₀⟩ := ih ⟨hnew, h.title, h.body, h.rest⟩
      refine ⟨l :: (body ++ before₀), body₀, rest₀, { hold with lines := ?_ }, hs₀⟩
      rw [hold.lines]
      simp only [List.cons_append, List.append_assoc]

theorem DocSorted.inOrder (h : DocSorted digit parse old new) : InOrderDoc digit parse new := by
  intro before title body rest hsection
  obtain ⟨before₀, body₀, rest₀, -, hs⟩ := h.of_section hsection
  exact hs.inOrder

theorem DocSorted.timely (h : DocSorted digit parse old new) (ht : TimelyDoc digit parse old) :
    TimelyDoc digit parse new := by
  intro before title body rest hsection
  obtain ⟨before₀, body₀, rest₀, hold, hs⟩ := h.of_section hsection
  exact (ht _ _ _ _ hold).perm hs.perm

theorem sortOne_section (pre : List Line) (l : Line) {body body' : List Line} (rest : List Line) (changed skipped : Bool)
    {sectionSkipped : Bool} (h : sortSection digit parse body = some (body', sectionSkipped)) :
    sortOne digit parse ⟨pre ++ l :: (body ++ rest), changed, skipped⟩ (pre.length + 1, pre.length + 1 + body.length) =
      some ⟨pre ++ l :: (body' ++ rest), changed || decide (body' ≠ body), skipped || sectionSkipped⟩ := by
  have hsplit : pre ++ l :: (body ++ rest) = (pre ++ [l]) ++ body ++ rest := by simp
  have hlen : pre.length + 1 = (pre ++ [l]).length := by simp
  have hslice : slice (pre ++ l :: (body ++ rest)) (pre.length + 1, pre.length + 1 + body.length) = body := by
    rw [slice, hsplit, hlen]
    dsimp only
    rw [← List.length_append, List.take_left, List.drop_left]
  rw [sortOne]
  dsimp only
  rw [hslice, h]
  dsimp only
  split
  · rename_i heq
    rw [heq]
    simp
  rename_i hne
  have htake : (pre ++ l :: (body ++ rest)).take (pre.length + 1) = pre ++ [l] := by
    rw [hsplit, List.append_assoc, hlen, List.take_left]
  have hdrop : (pre ++ l :: (body ++ rest)).drop (pre.length + 1 + body.length) = rest := by
    rw [hsplit, hlen, ← List.length_append, List.drop_left]
  rw [htake, hdrop]
  simp [hne]

theorem foldlM_sections (lines : List Line) : ∀ pre : List Line, TimelyDoc digit parse lines →
    ∃ new changed skipped,
      (sectionsFrom pre.length lines).reverse.foldlM (sortOne digit parse) ⟨pre ++ lines, false, false⟩ =
        some ⟨pre ++ new, changed, skipped⟩ ∧
      DocSorted digit parse lines new ∧ (changed = true ↔ new ≠ lines) ∧ (InOrderDoc digit parse lines → new = lines) := by
  induction hn : lines.length using Nat.strongRecOn generalizing lines with
  | _ n ih =>
    intro pre htimely
    cases lines with
    | nil => exact ⟨[], false, false, rfl, .nil, by simp, fun _ => rfl⟩
    | cons l lines =>
      rw [List.length_cons] at hn
      cases hl : isHistory l with
      | false =>
        have hcons : ∀ {before title body rest}, IsSection lines before title body rest →
            IsSection (l :: lines) (l :: before) title body rest :=
          fun h => ⟨congrArg (l :: ·) h.lines, h.title, h.body, h.rest⟩
        obtain ⟨new, changed, skipped, hfold, hdoc, hchanged, hkeep⟩ := ih lines.length (by omega) lines rfl (pre ++ [l])
          fun before title body rest h => htimely _ _ _ _ (hcons h)
        refine ⟨l :: new, changed, skipped, ?_, .line hl hdoc, ?_, ?_⟩
        · rw [sectionsFrom, if_neg (by rw [hl]; decide)]
          rw [List.length_append, List.length_singleton, List.append_assoc, List.append_assoc] at hfold
          exact hfold
        · rw [hchanged]
          simp
        · intro horder
          rw [hkeep fun before title body rest h => horder _ _ _ _ (hcons h)]
      | true =>
        obtain ⟨body, rest, rfl, hbody, hrest⟩ := exists_body lines
        have hcons : ∀ {before title body' rest'}, IsSection rest before title body' rest' →
            IsSection (l :: (body ++ rest)) (l :: (body ++ before)) title body' rest' := by
          intro before title body' rest' h
          refine ⟨?_, h.title, h.body, h.rest⟩
          rw [h.lines]
          simp only [List.cons_append, List.append_assoc]
        have hfirst : IsSection (l :: (body ++ rest)) [] l body rest := ⟨rfl, hl, hbody, hrest⟩
        rw [List.length_append] at hn
        obtain ⟨new, changed, skipped, hfold, hdoc, hchanged, hkeep⟩ := ih rest.length (by omega) rest rfl
          (pre ++ l :: body) fun before title body' rest' h => htimely _ _ _ _ (hcons h)
        obtain ⟨body', sectionSkipped, hsort, hs, hsame⟩ := sortSection_spec (htimely _ _ _ _ hfirst)
        have hranges : sectionsFrom pre.length (l :: (body ++ rest)) =
            (pre.length + 1, pre.length + 1 + body.length) :: sectionsFrom (pre ++ l :: body).length rest := by
          rw [sectionsFrom, if_pos hl, takeWhile_body hbody hrest, sectionsFrom_append hbody]
          congr 2
          rw [List.length_append, List.length_cons]
          omega
        have hpre : ∀ tail : List Line, (pre ++ l :: body) ++ tail = pre ++ l :: (body ++ tail) := fun tail => by simp
        rw [hpre, hpre] at hfold
        refine ⟨l :: (body' ++ new), changed || decide (body' ≠ body), skipped || sectionSkipped, ?_,
          .section hl hbody hrest hs hdoc, ?_, ?_⟩
        · rw [hranges, List.reverse_cons, List.foldlM_append, hfold, Option.bind_eq_bind, Option.bind_some, List.foldlM_cons,
            sortOne_section pre l new changed skipped hsort]
          rfl
        · rw [Bool.or_eq_true, hchanged, decide_eq_true_eq]
          have hlen := hs.perm.length_eq
          constructor
          · rintro hne heq
            obtain ⟨hbodies, hrests⟩ := List.append_inj (List.cons.inj heq).2 hlen
            rcases hne with hne | hne
            · exact hne hrests
            · exact hne hbodies
          intro hne
          by_contra hboth
          rw [not_or, not_not, not_not] at hboth
          exact hne (by rw [hboth.1, hboth.2])
        · intro horder
          rw [hsame (horder _ _ _ _ hfirst), hkeep fun before title body' rest' h => horder _ _ _ _ (hcons h)]

theorem sortUpdateHistorySections_spec {lines : List Line} (h : TimelyDoc digit parse lines) :
    ∃ new changed skipped, sortUpdateHistorySections digit parse lines = some ⟨new, changed, skipped⟩ ∧
      DocSorted digit parse lines new ∧ (changed = true ↔ new ≠ lines) ∧ (InOrderDoc digit parse lines → new = lines) :=
  foldlM_sections lines [] h

end AgentsRemember.History
