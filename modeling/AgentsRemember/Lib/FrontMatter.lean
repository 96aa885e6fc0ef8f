import AgentsRemember.Lib.Dict
import AgentsRemember.Lib.Lines

/-!
# Front matter

A block between two lines of dashes that holds `key: value` lines and sections
of indented ones, and nothing deeper. Values are written as they are, so a
block reads back what was written only as far as its values are plain:
`parseLimited_lines` says what is read from any block whose values are stripped
and hold no line break, `parse_eq_write` when that is what was written.
-/

namespace Lib

namespace FrontMatter

open Lines

inductive Node
  | text (s : String)
  | section (cells : Dict String String)

abbrev Data := Dict String Node

/-- What is read so far, and the section that is open. -/
structure Reader where
  data : Data
  current : Option (String × Dict String String)

def cut (cs : List Char) : Option (List Char × List Char) :=
  match cs.dropWhile (· ≠ ':') with
  | [] => none
  | _ :: value => some (cs.takeWhile (· ≠ ':'), value)

def key (cs : List Char) : String := String.ofList (strip cs)

def Reader.step (r : Reader) (line : List Char) : Reader :=
  if isBlank line then r
  else if [' ', ' '].isPrefixOf line then
    match r.current, cut (strip line) with
    | some (name, cells), some (k, v) =>
      let cells := cells.set (key k) (key v)
      ⟨r.data.set name (.section cells), some (name, cells)⟩
    | _, _ => r
  else if line.getLast? = some ':' then
    let name := key line.dropLast
    ⟨r.data.set name (.section Dict.empty), some (name, Dict.empty)⟩
  else
    match cut line with
    | some (k, v) => ⟨r.data.set (key k) (.text (key v)), none⟩
    | none => ⟨r.data, none⟩

def readLines (r : Reader) (lines : List (List Char)) : Reader := lines.foldl Reader.step r

def parseLimited (text : List Char) : Data := (readLines ⟨Dict.empty, none⟩ (splitlines text)).data

/-! ## Blocks -/

inductive Block
  | gap
  | cell (key value : String)
  | section (name : String) (cells : List (String × String))

def entry (k v : String) : List Char := k.toList ++ ':' :: ' ' :: v.toList

def Block.lines : Block → List (List Char)
  | .gap => [[]]
  | .cell k v => [entry k v]
  | .section name cells => (name.toList ++ [':']) :: cells.map fun e => ' ' :: ' ' :: entry e.1 e.2

def Block.node : Block → Option (String × Node)
  | .gap => none
  | .cell k v => some (k, .text v)
  | .section name cells => some (name, .section (Dict.ofEntries cells))

def Block.readNode : Block → Option (String × Node)
  | .gap => none
  | .cell k v =>
    if v.toList.getLast? = some ':' then some (key (entry k v).dropLast, .section Dict.empty) else some (k, .text v)
  | .section name cells => some (name, .section (Dict.ofEntries cells))

def written (bs : List Block) : Data := Dict.ofEntries (bs.filterMap Block.node)

/-- A value that its line gives back. -/
def CellText (s : String) : Prop := strip s.toList = s.toList ∧ ∀ c ∈ s.toList, isLineBreak c = false

instance (s : String) : Decidable (CellText s) := inferInstanceAs (Decidable (_ ∧ _))

def IsKey (s : String) : Prop :=
  (∃ c ∈ s.toList.head?, isPythonSpace c = false) ∧ CellText s ∧ ':' ∉ s.toList

instance (s : String) : Decidable (IsKey s) := inferInstanceAs (Decidable (_ ∧ _ ∧ _))

def Block.keys : Block → List String
  | .gap => []
  | .cell k _ => [k]
  | .section name cells => name :: cells.map Prod.fst

def Block.values : Block → List String
  | .gap => []
  | .cell _ v => [v]
  | .section _ cells => cells.map Prod.snd

/-! ## One line -/

theorem cut_append {k : List Char} (h : ':' ∉ k) (w : List Char) : cut (k ++ ':' :: w) = some (k, w) := by
  have hk : ∀ c ∈ k, decide (c ≠ ':') = true := fun c hc => decide_eq_true fun e => h (e ▸ hc)
  rw [cut, List.dropWhile_append_of_pos hk, List.takeWhile_append_of_pos hk]
  simp

variable {s k v : String} {c : Char} {cs text : List Char} {b : Block} {ls rest : List (List Char)} {bs : List Block}

theorem key_toList (h : strip s.toList = s.toList) : key s.toList = s := by
  rw [key, h, String.ofList_toList]

theorem key_value (h : strip s.toList = s.toList) : key (' ' :: s.toList) = s := by
  rw [key, strip_space_left (by decide), h, String.ofList_toList]

theorem IsKey.exists_cons (h : IsKey s) : ∃ c cs, s.toList = c :: cs ∧ isPythonSpace c = false := by
  obtain ⟨⟨c, hc, hs⟩, -⟩ := h
  obtain ⟨cs, heq⟩ := List.head?_eq_some_iff.mp hc
  exact ⟨c, cs, heq, hs⟩

theorem not_blank (h : isPythonSpace c = false) (hc : c ∈ cs) : isBlank cs = false := by
  rw [isBlank, List.all_eq_false]
  exact ⟨c, hc, by simp [h]⟩

theorem not_indented (h : isPythonSpace c = false) (cs : List Char) : [' ', ' '].isPrefixOf (c :: cs) = false := by
  have hc : ' ' ≠ c := by
    rintro rfl
    exact absurd h (by decide)
  simp [List.isPrefixOf, hc]

theorem getLast?_entry (k v : String) : (entry k v).getLast? = some ':' ↔ v.toList.getLast? = some ':' := by
  rw [entry]
  cases v.toList using List.reverseRecOn with
  | nil => simp
  | append_singleton cs c =>
    have hlast : k.toList ++ ':' :: ' ' :: (cs ++ [c]) = (k.toList ++ ':' :: ' ' :: cs) ++ [c] := by simp
    rw [hlast, List.getLast?_concat, List.getLast?_concat]

theorem step_indented (hk : IsKey k) (hv : strip v.toList = v.toList) (d : Data) (name : String)
    (cells : Dict String String) : (Reader.mk d (some (name, cells))).step (' ' :: ' ' :: entry k v) =
      ⟨d.set name (.section (cells.set k v)), some (name, cells.set k v)⟩ := by
  obtain ⟨c, cs, hcs, hs⟩ := hk.exists_cons
  have hblank : isBlank (' ' :: ' ' :: entry k v) = false := not_blank hs (by simp [entry, hcs])
  have hstrip : strip (' ' :: ' ' :: entry k v) = k.toList ++ ':' :: (' ' :: v.toList).rdropWhile isPythonSpace := by
    rw [strip_space_left (by decide), strip_space_left (by decide), entry, hcs, strip_append_cons hs (by decide)]
  have hvalue : key ((' ' :: v.toList).rdropWhile isPythonSpace) = v := by
    rw [key, strip_rdropWhile]
    exact key_value hv
  rw [Reader.step, hblank, hstrip, cut_append hk.2.2]
  simp only [key_toList hk.2.1.1, hvalue]
  simp [List.isPrefixOf]

def put (d : Data) (n : Option (String × Node)) : Data := n.elim d fun e => d.set e.1 e.2

theorem step_entry (hk : IsKey k) (hv : strip v.toList = v.toList) (r : Reader) :
    (r.step (entry k v)).data = put r.data (Block.cell k v).readNode := by
  obtain ⟨c, cs, hcs, hs⟩ := hk.exists_cons
  have hblank : isBlank (entry k v) = false := not_blank hs (by simp [entry, hcs])
  have hindent : [' ', ' '].isPrefixOf (entry k v) = false := by
    rw [entry, hcs, List.cons_append]
    exact not_indented hs _
  rw [Reader.step, hblank, hindent, Block.readNode]
  by_cases hlast : v.toList.getLast? = some ':'
  · simp [put, hlast, (getLast?_entry k v).mpr hlast]
  have hne : ¬(entry k v).getLast? = some ':' := fun h => hlast ((getLast?_entry k v).mp h)
  have hcut : cut (entry k v) = some (k.toList, ' ' :: v.toList) := cut_append hk.2.2 _
  simp [put, hlast, hne, hcut, key_toList hk.2.1.1, key_value hv]

theorem step_section {name : String} (hn : IsKey name) (r : Reader) :
    r.step (name.toList ++ [':']) = ⟨r.data.set name (.section Dict.empty), some (name, Dict.empty)⟩ := by
  obtain ⟨c, cs, hcs, hs⟩ := hn.exists_cons
  have hblank : isBlank (name.toList ++ [':']) = false := not_blank hs (by simp [hcs])
  have hindent : [' ', ' '].isPrefixOf (name.toList ++ [':']) = false := by
    rw [hcs, List.cons_append]
    exact not_indented hs _
  rw [Reader.step, hblank, hindent]
  simp [key_toList hn.2.1.1]

/-! ## Blocks of lines -/

theorem readLines_append (r : Reader) (ls ms : List (List Char)) : readLines r (ls ++ ms) = readLines (readLines r ls) ms :=
  List.foldl_append

theorem readLines_cells (name : String) : ∀ (es : List (String × String)) (d : Data) (cells : Dict String String),
    (∀ e ∈ es, IsKey e.1 ∧ CellText e.2) →
      (readLines ⟨d.set name (.section cells), some (name, cells)⟩ (es.map fun e => ' ' :: ' ' :: entry e.1 e.2)).data =
        d.set name (.section (es.foldl (fun cs e => cs.set e.1 e.2) cells))
  | [], d, cells, _ => rfl
  | e :: es, d, cells, h => by
    rw [List.forall_mem_cons] at h
    rw [List.map_cons, readLines, List.foldl_cons, step_indented h.1.1 h.1.2.1, Dict.set_set]
    exact readLines_cells name es d _ h.2

/-- The keys of a block are keys, and its values are given back by their lines. -/
structure Block.Plain (b : Block) : Prop where
  keys : ∀ k ∈ b.keys, IsKey k
  values : ∀ v ∈ b.values, CellText v

theorem readLines_block (h : b.Plain) (r : Reader) : (readLines r b.lines).data = put r.data b.readNode := by
  cases b with
  | gap => rfl
  | cell k v => exact step_entry (h.keys k (by simp [Block.keys])) (h.values v (by simp [Block.values])).1 r
  | «section» name cells =>
    have hname := h.keys name (by simp [Block.keys])
    have hcells : ∀ e ∈ cells, IsKey e.1 ∧ CellText e.2 := fun e he =>
      ⟨h.keys e.1 (List.mem_cons_of_mem _ (List.mem_map_of_mem he)), h.values e.2 (List.mem_map_of_mem he)⟩
    rw [Block.lines, readLines, List.foldl_cons, step_section hname]
    exact readLines_cells name cells r.data Dict.empty hcells

theorem readLines_blocks : ∀ (bs : List Block) (r : Reader), (∀ b ∈ bs, b.Plain) →
    (readLines r (bs.flatMap Block.lines)).data = (bs.filterMap Block.readNode).foldl (fun d e => d.set e.1 e.2) r.data
  | [], _, _ => rfl
  | b :: bs, r, h => by
    rw [List.forall_mem_cons] at h
    rw [List.flatMap_cons, readLines_append, readLines_blocks bs _ h.2, readLines_block h.1, List.filterMap_cons]
    cases b.readNode <;> rfl

/-! ## Joined lines -/

theorem intercalate_append (x : List Char) : ∀ {ls ms : List (List Char)}, ls ≠ [] → ms ≠ [] →
    x.intercalate (ls ++ ms) = x.intercalate ls ++ x ++ x.intercalate ms
  | [], _, h, _ => absurd rfl h
  | [l], m :: ms, _, _ => by
    rw [List.singleton_append, List.intercalate_cons_cons, List.intercalate_singleton]
  | [l], [], _, h => absurd rfl h
  | l :: l' :: ls, ms, _, h => by
    have ih := @intercalate_append x (l' :: ls) _ (List.cons_ne_nil l' ls) h
    rw [List.cons_append] at ih
    rw [List.cons_append, List.cons_append, List.intercalate_cons_cons, List.intercalate_cons_cons, ih]
    simp only [List.append_assoc]

theorem breakLines_intercalate : ∀ {ls : List (List Char)}, (∀ l ∈ ls, ∀ c ∈ l, isLineBreak c = false) →
    (∃ l ∈ ls.getLast?, l ≠ []) → breakLines isLineBreak (['\n'].intercalate ls) = ls
  | [], _, hlast => by
    obtain ⟨l, hl, -⟩ := hlast
    cases hl
  | [l], h, hlast => by
    obtain ⟨m, hm, hne⟩ := hlast
    obtain rfl : l = m := by simpa using hm
    rw [List.intercalate_singleton, breakLines_of_all hne (h l (by simp))]
  | l :: m :: ls, h, hlast => by
    rw [List.forall_mem_cons] at h
    rw [List.intercalate_cons_cons, List.append_assoc, List.singleton_append, breakLines_append _ (by decide), split_of_all h.1,
      breakLines_intercalate h.2 (by simpa using hlast)]
    rfl

theorem mem_intercalate {x : List Char} : ∀ {ls : List (List Char)}, c ∈ x.intercalate ls → c ∈ x ∨ ∃ l ∈ ls, c ∈ l
  | [], h => absurd h (by simp)
  | [l], h => by
    rw [List.intercalate_singleton] at h
    exact .inr ⟨l, by simp, h⟩
  | l :: m :: ls, h => by
    rw [List.intercalate_cons_cons, List.append_assoc, List.mem_append, List.mem_append] at h
    rcases h with h | h | h
    · exact .inr ⟨l, by simp, h⟩
    · exact .inl h
    · exact (mem_intercalate h).imp_right fun ⟨l', hl', hc⟩ => ⟨l', List.mem_cons_of_mem _ hl', hc⟩

theorem splitlines_intercalate (h : ∀ l ∈ ls, ∀ c ∈ l, isLineBreak c = false) (hlast : ∃ l ∈ ls.getLast?, l ≠ []) :
    splitlines (['\n'].intercalate ls) = ls := by
  have hcr : '\r' ∉ ['\n'].intercalate ls := by
    intro hmem
    rcases mem_intercalate hmem with hmem | ⟨l, hl, hmem⟩
    · exact absurd hmem (by decide)
    · exact absurd (h l hl _ hmem) (by decide)
  rw [splitlines_of_no_cr hcr, breakLines_intercalate h hlast]

theorem guarded_intercalate : ∀ {ls : List (List Char)}, (∀ l ∈ ls, '\n' ∉ l ∧ ∀ c ∈ l.head?, c ≠ '-') →
    (∃ l ∈ ls.getLast?, l ≠ []) → Guarded '\n' '-' (['\n'].intercalate ls)
  | [], _, _ => guarded_of_not_mem (by simp)
  | [l], h, _ => by
    rw [List.intercalate_singleton]
    exact guarded_of_not_mem (h l (by simp)).1
  | l :: m :: ls, h, hlast => by
    rw [List.forall_mem_cons] at h
    have ih := @guarded_intercalate (m :: ls) h.2 (by simpa using hlast)
    have hhead : ∃ d ∈ (['\n'].intercalate (m :: ls)).head?, d ≠ '-' := by
      cases m with
      | nil =>
        cases ls with
        | nil =>
          obtain ⟨m, hm, hne⟩ := hlast
          exact absurd (by simpa using hm) hne
        | cons m ls => exact ⟨'\n', by rw [List.intercalate_cons_cons]; rfl, by decide⟩
      | cons d m =>
        have hd : (['\n'].intercalate ((d :: m) :: ls)).head? = some d := by
          cases ls with
          | nil => rw [List.intercalate_singleton]; rfl
          | cons m ls => rw [List.intercalate_cons_cons]; rfl
        exact ⟨d, hd, (h.2 (d :: m) (by simp)).2 d rfl⟩
    rw [List.intercalate_cons_cons, List.append_assoc]
    exact (guarded_of_not_mem h.1.1).append (guarded_cons (.inr hhead) ih)

theorem findFirst_closing (h : ∀ l ∈ ls, '\n' ∉ l ∧ ∀ c ∈ l.head?, c ≠ '-') (hlast : ∃ l ∈ ls.getLast?, l ≠ [])
    (hrest : rest ≠ []) :
    findFirst ['\n', '-', '-', '-'] (['\n'].intercalate (ls ++ ['-', '-', '-'] :: rest)) =
      some (['\n'].intercalate ls, '\n' :: ['\n'].intercalate rest) := by
  have hne : ls ≠ [] := by
    rintro rfl
    obtain ⟨l, hl, -⟩ := hlast
    cases hl
  have hjoin : ['\n'].intercalate (ls ++ ['-', '-', '-'] :: rest) =
      ['\n'].intercalate ls ++ ['\n', '-', '-', '-'] ++ '\n' :: ['\n'].intercalate rest := by
    rw [intercalate_append _ hne (List.cons_ne_nil _ _), List.intercalate_cons_of_ne_nil hrest]
    simp
  rw [hjoin]
  exact findFirst_guarded ['-', '-'] (guarded_intercalate h hlast) _

/-! ## What is read is plain -/

def Node.Plain : Node → Prop
  | .text s => CellText s
  | .section cells => ∀ v ∈ cells.values, CellText v

structure Reader.Plain (r : Reader) : Prop where
  data : ∀ n ∈ r.data.values, n.Plain
  current : ∀ c ∈ r.current, ∀ v ∈ c.2.values, CellText v

theorem cellText_key (h : ∀ c ∈ cs, isLineBreak c = false) : CellText (key cs) := by
  rw [CellText, key, String.toList_ofList]
  exact ⟨strip_idem cs, fun c hc => h c ((strip_sublist cs).subset hc)⟩

theorem values_set {κ α : Type} [DecidableEq κ] {P : α → Prop} {d : Dict κ α} {k : κ} {v : α} (hd : ∀ w ∈ d.values, P w)
    (hv : P v) : ∀ w ∈ (d.set k v).values, P w := by
  intro w hw
  obtain ⟨k', hk'⟩ := Dict.mem_values.mp hw
  rw [Dict.get?_set] at hk'
  split at hk'
  · exact Option.some.inj hk' ▸ hv
  · exact hd w (Dict.mem_values.mpr ⟨k', hk'⟩)

theorem cut_mem {k v : List Char} (h : cut cs = some (k, v)) : ∀ c ∈ v, c ∈ cs := by
  rw [cut] at h
  split at h
  · cases h
  rename_i d value heq
  obtain ⟨rfl, rfl⟩ := Prod.mk.inj (Option.some.inj h)
  intro c hc
  exact (List.dropWhile_sublist _).subset (by rw [heq]; exact List.mem_cons_of_mem _ hc)

theorem Reader.Plain.step {r : Reader} (h : r.Plain) {line : List Char} (hline : ∀ c ∈ line, isLineBreak c = false) :
    (r.step line).Plain := by
  rw [Reader.step]
  split
  · exact h
  split
  · split
    · rename_i name cells k v hcurrent hcut
      have hv : CellText (key v) := cellText_key fun c hc => hline c ((strip_sublist line).subset (cut_mem hcut c hc))
      have hcells := values_set (P := CellText) (k := key k) (h.current (name, cells) hcurrent) hv
      exact ⟨values_set h.data hcells, fun c hc => by
        obtain rfl := Option.some.inj hc
        exact hcells⟩
    · exact h
  split
  · have hempty : ∀ v ∈ (Dict.empty : Dict String String).values, CellText v := fun v hv => by cases hv
    exact ⟨values_set h.data hempty, fun c hc => by
      obtain rfl := Option.some.inj hc
      exact hempty⟩
  split
  · rename_i k v hcut
    have hv : CellText (key v) := cellText_key fun c hc => hline c (cut_mem hcut c hc)
    exact ⟨values_set (P := Node.Plain) h.data hv, fun c hc => by cases hc⟩
  · exact ⟨h.data, fun c hc => by cases hc⟩

theorem plain_readLines : ∀ {ls : List (List Char)} {r : Reader}, r.Plain → (∀ l ∈ ls, ∀ c ∈ l, isLineBreak c = false) →
    (readLines r ls).Plain
  | [], _, h, _ => h
  | l :: ls, r, h, hls => by
    rw [List.forall_mem_cons] at hls
    rw [readLines, List.foldl_cons]
    exact plain_readLines (h.step hls.1) hls.2

theorem plain_parseLimited (text : List Char) : ∀ n ∈ (parseLimited text).values, n.Plain := by
  have hstart : (Reader.mk Dict.empty none).Plain := ⟨nofun, nofun⟩
  exact (plain_readLines hstart breakLines_pure).data

/-! ## What was written is read -/

structure WellKeyed (bs : List Block) : Prop where
  keys : ∀ b ∈ bs, ∀ k ∈ b.keys, IsKey k
  names : ((bs.filterMap Block.node).map Prod.fst).Nodup
  cells : ∀ name cells, Block.section name cells ∈ bs → (cells.map Prod.fst).Nodup

structure Clean (bs : List Block) : Prop where
  values : ∀ b ∈ bs, ∀ v ∈ b.values, CellText v
  colon : ∀ k v, Block.cell k v ∈ bs → v.toList.getLast? ≠ some ':'

theorem parseLimited_lines (hk : WellKeyed bs) (hv : ∀ b ∈ bs, ∀ v ∈ b.values, CellText v)
    (htext : splitlines text = bs.flatMap Block.lines) :
    parseLimited text = Dict.ofEntries (bs.filterMap Block.readNode) := by
  rw [parseLimited, htext, readLines_blocks bs _ fun b hb => ⟨hk.keys b hb, hv b hb⟩]
  rfl

theorem readNode_of_clean (h : Clean bs) : bs.filterMap Block.readNode = bs.filterMap Block.node := by
  refine List.filterMap_congr fun b hb => ?_
  cases b with
  | cell k v => exact if_neg (h.colon k v hb)
  | _ => rfl

theorem get?_written (hk : WellKeyed bs) (hb : b ∈ bs) {n : Node} (hn : b.node = some (k, n)) :
    (written bs).get? k = some n := by
  rw [Dict.get?_eq_some, written, Dict.entries_ofEntries hk.names]
  exact List.mem_filterMap.mpr ⟨b, hb, hn⟩

theorem values_of_written (hk : WellKeyed bs) (h : ∀ n ∈ (written bs).values, n.Plain) :
    ∀ b ∈ bs, ∀ v ∈ b.values, CellText v := by
  intro b hb v hv
  have hplain : ∀ k n, b.node = some (k, n) → n.Plain := fun k n hn => h n (Dict.mem_values.mpr ⟨k, get?_written hk hb hn⟩)
  cases b with
  | gap => cases hv
  | cell k w =>
    rw [Block.values, List.mem_singleton] at hv
    exact hv ▸ hplain k _ rfl
  | «section» name cells =>
    refine hplain name _ rfl v ?_
    rwa [Dict.values, Dict.entries_ofEntries (hk.cells name cells hb)]

theorem colon_mem_key (hk : IsKey k) (hv : v.toList.getLast? = some ':') : ':' ∈ (key (entry k v).dropLast).toList := by
  obtain ⟨c, cs, hcs, hs⟩ := hk.exists_cons
  have hne : v.toList ≠ [] := by
    intro h
    rw [h] at hv
    cases hv
  have hdrop : (entry k v).dropLast = c :: cs ++ ':' :: ' ' :: v.toList.dropLast := by
    rw [entry, hcs, List.dropLast_append_of_ne_nil (List.cons_ne_nil _ _), List.dropLast_cons_of_ne_nil (List.cons_ne_nil _ _),
      List.dropLast_cons_of_ne_nil hne]
  rw [key, String.toList_ofList, hdrop, strip_append_cons hs (by decide)]
  simp

theorem readNode_eq (b : Block) : b.readNode = b.node ∨
    ∃ k v, b = .cell k v ∧ v.toList.getLast? = some ':' ∧ b.readNode = some (key (entry k v).dropLast, .section Dict.empty) := by
  cases b with
  | cell k v =>
    by_cases hcolon : v.toList.getLast? = some ':'
    · exact .inr ⟨k, v, rfl, hcolon, if_pos hcolon⟩
    · exact .inl (if_neg hcolon)
  | _ => exact .inl rfl

theorem clean_of_eq (hk : WellKeyed bs) (hv : ∀ b ∈ bs, ∀ v ∈ b.values, CellText v)
    (h : Dict.ofEntries (bs.filterMap Block.readNode) = written bs) : Clean bs := by
  refine ⟨hv, fun k v hb hcolon => ?_⟩
  have hkey : IsKey k := hk.keys _ hb k (by simp [Block.keys])
  have hmem : k ∈ (Dict.ofEntries (bs.filterMap Block.readNode)).keys := by
    rw [h, Dict.mem_keys]
    exact ⟨_, get?_written hk hb rfl⟩
  obtain ⟨⟨k', n⟩, he, rfl⟩ := List.mem_map.mp (Dict.mem_keys_ofEntries.mp hmem)
  obtain ⟨b, hb', hn⟩ := List.mem_filterMap.mp he
  rcases readNode_eq b with hsame | ⟨k₀, v₀, rfl, hcolon₀, hread⟩
  · rw [hsame] at hn
    obtain rfl : n = .text v := Option.some.inj ((get?_written hk hb' hn).symm.trans (get?_written hk hb rfl))
    cases b with
    | gap => cases hn
    | cell k₁ v₁ =>
      obtain ⟨rfl, hv₁⟩ := Prod.mk.inj (Option.some.inj hn)
      obtain rfl := Node.text.inj hv₁
      rw [Block.readNode, if_pos hcolon, Block.node] at hsame
      have hnode := (Prod.mk.inj (Option.some.inj hsame)).2
      cases hnode
    | «section» name cells => cases hn
  · rw [hread] at hn
    obtain ⟨rfl, -⟩ := Prod.mk.inj (Option.some.inj hn)
    exact hkey.2.2 (colon_mem_key (hk.keys _ hb' k₀ (by simp [Block.keys])) hcolon₀)

theorem parse_eq_written (hk : WellKeyed bs)
    (htext : (∀ b ∈ bs, ∀ v ∈ b.values, CellText v) → splitlines text = bs.flatMap Block.lines) :
    parseLimited text = written bs ↔ Clean bs := by
  constructor
  · intro h
    have hv := values_of_written hk (h ▸ plain_parseLimited text)
    exact clean_of_eq hk hv ((parseLimited_lines hk hv (htext hv)).symm.trans h)
  · intro h
    rw [parseLimited_lines hk h.values (htext h.values), readNode_of_clean h, written]

theorem plain_entry (hk : IsKey k) (hv : CellText v) : ∀ c ∈ entry k v, isLineBreak c = false := by
  intro c hc
  rw [entry, List.mem_append, List.mem_cons, List.mem_cons] at hc
  rcases hc with hc | rfl | rfl | hc
  · exact hk.2.1.2 c hc
  · rfl
  · rfl
  · exact hv.2 c hc

theorem Block.Plain.lines (h : b.Plain) : ∀ l ∈ b.lines, ∀ c ∈ l, isLineBreak c = false := by
  intro l hl
  cases b with
  | gap =>
    rw [Block.lines, List.mem_singleton] at hl
    rw [hl]
    nofun
  | cell k v =>
    rw [Block.lines, List.mem_singleton] at hl
    rw [hl]
    exact plain_entry (h.keys k (by simp [Block.keys])) (h.values v (by simp [Block.values]))
  | «section» name cells =>
    intro c hc
    rcases List.mem_cons.mp hl with rfl | hl
    · rcases List.mem_append.mp hc with hc | hc
      · exact (h.keys name (by simp [Block.keys])).2.1.2 c hc
      · rw [List.mem_singleton.mp hc]
        rfl
    obtain ⟨e, he, rfl⟩ := List.mem_map.mp hl
    have hkey := h.keys e.1 (List.mem_cons_of_mem _ (List.mem_map_of_mem he))
    rcases List.mem_cons.mp hc with rfl | hc
    · rfl
    rcases List.mem_cons.mp hc with rfl | hc
    · rfl
    · exact plain_entry hkey (h.values e.2 (List.mem_map_of_mem he)) c hc

theorem head_lines (hk : ∀ k ∈ b.keys, IsKey k ∧ k.toList.head? ≠ some '-') :
    ∀ l ∈ b.lines, ∀ c ∈ l.head?, c ≠ '-' := by
  have hkey : ∀ k ∈ b.keys, ∀ rest, ∀ c ∈ (k.toList ++ rest).head?, c ≠ '-' := by
    intro k hmem rest c hc
    obtain ⟨hk, hne⟩ := hk k hmem
    obtain ⟨d, ds, hds, -⟩ := hk.exists_cons
    rw [hds] at hc hne
    rintro rfl
    exact hne hc
  intro l hl
  cases b with
  | gap =>
    rw [Block.lines, List.mem_singleton] at hl
    rw [hl]
    nofun
  | cell k v =>
    rw [Block.lines, List.mem_singleton] at hl
    rw [hl]
    exact hkey k (by simp [Block.keys]) _
  | «section» name cells =>
    rcases List.mem_cons.mp hl with rfl | hl
    · exact hkey name (by simp [Block.keys]) _
    obtain ⟨e, -, rfl⟩ := List.mem_map.mp hl
    intro c hc
    rw [List.head?_cons, Option.mem_some_iff] at hc
    rw [← hc]
    decide

theorem front_of_plain (hp : ∀ b ∈ bs, b.Plain) (hdash : ∀ b ∈ bs, ∀ k ∈ b.keys, k.toList.head? ≠ some '-')
    (hlast : ∃ l ∈ (bs.flatMap Block.lines).getLast?, l ≠ []) (hrest : rest ≠ []) :
    findFirst ['\n', '-', '-', '-'] (['\n'].intercalate (bs.flatMap Block.lines ++ ['-', '-', '-'] :: rest)) =
        some (['\n'].intercalate (bs.flatMap Block.lines), '\n' :: ['\n'].intercalate rest) ∧
      splitlines (['\n'].intercalate (bs.flatMap Block.lines)) = bs.flatMap Block.lines := by
  have hplain : ∀ l ∈ bs.flatMap Block.lines, ∀ c ∈ l, isLineBreak c = false := by
    intro l hl
    obtain ⟨b, hb, hl⟩ := List.mem_flatMap.mp hl
    exact (hp b hb).lines l hl
  refine ⟨findFirst_closing (fun l hl => ⟨fun hmem => ?_, ?_⟩) hlast hrest, splitlines_intercalate hplain hlast⟩
  · exact absurd (hplain l hl _ hmem) (by decide)
  · obtain ⟨b, hb, hl⟩ := List.mem_flatMap.mp hl
    exact head_lines (fun k hk => ⟨(hp b hb).keys k hk, hdash b hb k hk⟩) l hl

end FrontMatter

end Lib
