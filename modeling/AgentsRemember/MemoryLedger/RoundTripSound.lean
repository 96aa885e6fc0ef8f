import AgentsRemember.MemoryLedger.Format
import AgentsRemember.Lib.JsonTextLex
import Mathlib.Data.List.Find

/-!
# The ledger's text reads back

The metadata is JSON between two fences and reads back whole, but for the white
space that `_metadata_get` strips. A table row reads back when its two cells
hold no line break and no pipe and are stripped. `ledger_round_trip` says when a
ledger built by `create_initial_ledger` and `prepend_mapping` reads back.
-/

namespace AgentsRemember.MemoryLedger

open Lib Lib.JsonText Lib.Lines

/-! ## The fence -/

abbrev Unfenced (cs : List Char) : Prop := Guarded '\n' '`' cs

theorem findFirst_unfenced {cs : List Char} (h : Unfenced cs) (rest : List Char) :
    findFirst fenceClose (cs ++ fenceClose ++ rest) = some (cs, rest) := findFirst_guarded ['`', '`'] h rest

theorem newline_not_mem_escapeChar (ascii : Bool) (c : Char) : '\n' ∉ escapeChar ascii c := by
  have hhex : ∀ n, '\n' ∉ unicodeEscape n := by
    intro n h
    rcases List.mem_cons.mp h with h | h
    · exact absurd h (by decide)
    rcases List.mem_cons.mp h with h | h
    · exact absurd h (by decide)
    · exact absurd (hexDigit_plain h).2.2 (by decide)
  intro h
  unfold escapeChar at h
  cases hl : Dict.lookupIn c shortEscapes with
  | some e =>
    have hm := Dict.mem_of_lookupIn hl
    have hno : ∀ p ∈ shortEscapes, '\n' ∉ [backslash, p.2] := by decide
    simp only [hl] at h
    exact hno _ hm h
  | none =>
    simp only [hl] at h
    split at h
    · split at h
      · exact hhex _ h
      rcases List.mem_append.mp h with h | h
      · exact hhex _ h
      · exact hhex _ h
    have hc := Dict.lookupIn_eq_none.mp hl
    rw [← List.mem_singleton.mp h] at hc
    exact hc (by decide)

theorem unfenced_printString (f : Format) (s : String) : Unfenced (printString f s) := by
  refine guarded_of_not_mem fun h => ?_
  rw [printString, List.cons_append, List.mem_cons, List.mem_append, List.mem_singleton] at h
  rcases h with h | h | h
  · exact absurd h (by decide)
  · obtain ⟨c, -, hc⟩ := List.mem_flatMap.mp h
    exact newline_not_mem_escapeChar f.ascii c hc
  · exact absurd h (by decide)

theorem unfenced_printFields : ∀ fields : List (String × Value), (∀ e ∈ fields, ∃ s, e.2 = text s) →
    Unfenced (printFields metadataFormat 1 fields)
  | [], _ => guarded_of_not_mem (by simp [printFields])
  | (k, v) :: fields, h => by
    obtain ⟨s, hs⟩ := h (k, v) (List.mem_cons_self ..)
    have hbreak : Unfenced (comma metadataFormat ++ newline metadataFormat 1) :=
      guarded_cons (.inl (by decide)) (guarded_cons (.inr ⟨' ', rfl, by decide⟩) (guarded_of_not_mem (by decide)))
    have hv : Unfenced (print metadataFormat 1 v) := by
      simp only at hs
      rw [hs]
      exact unfenced_printString _ _
    have hcolon : Unfenced (colon metadataFormat) := guarded_of_not_mem (by decide)
    have hrest := unfenced_printFields fields fun e he => h e (List.mem_cons_of_mem _ he)
    rw [printFields]
    exact (((hbreak.append (unfenced_printString _ _)).append hcolon).append hv).append hrest

theorem unfenced_metadata {k : String} {v : Value} {fields : List (String × Value)}
    (h : ∀ e ∈ (k, v) :: fields, ∃ s, e.2 = text s) : Unfenced (dumps metadataFormat (.obj ((k, v) :: fields))) := by
  obtain ⟨s, hs⟩ := h (k, v) (List.mem_cons_self ..)
  have hopen : Unfenced ('{' :: newline metadataFormat 1) :=
    guarded_cons (.inl (by decide)) (guarded_cons (.inr ⟨' ', rfl, by decide⟩) (guarded_of_not_mem (by decide)))
  have hclose : Unfenced (newline metadataFormat 0 ++ ['}']) :=
    guarded_cons (.inr ⟨'}', rfl, by decide⟩) (guarded_of_not_mem (by decide))
  have hv : Unfenced (print metadataFormat 1 v) := by
    simp only at hs
    rw [hs]
    exact unfenced_printString _ _
  have hcolon : Unfenced (colon metadataFormat) := guarded_of_not_mem (by decide)
  have hrest := unfenced_printFields fields fun e he => h e (List.mem_cons_of_mem _ he)
  have hall := ((((hopen.append (unfenced_printString metadataFormat k)).append hcolon).append hv).append hrest).append hclose
  have heq : dumps metadataFormat (.obj ((k, v) :: fields)) = '{' :: newline metadataFormat 1 ++ printString metadataFormat k ++
      colon metadataFormat ++ print metadataFormat 1 v ++ printFields metadataFormat 1 fields ++
      (newline metadataFormat 0 ++ ['}']) := by
    rw [dumps, print]
    simp only [List.append_assoc, Nat.zero_add]
  rw [heq]
  exact hall

theorem searchFence_skip : ∀ {pre : List Char}, (∀ c ∈ pre, c ≠ '`') → ∀ cs, searchFence (pre ++ cs) = searchFence cs
  | [], _, _ => rfl
  | c :: pre, h, cs => by
    have hc := h c (List.mem_cons_self ..)
    have hopen : fenceOpen = '`' :: "``json".toList := rfl
    have hno : fenceOpen.isPrefixOf (c :: (pre ++ cs)) = false := by
      rw [hopen, List.isPrefixOf]
      simp only [Bool.and_eq_false_iff, beq_eq_false_iff_ne]
      exact .inl (Ne.symm hc)
    have hat : fenceAt (c :: (pre ++ cs)) = none := by
      rw [fenceAt, hno]
      rfl
    rw [List.cons_append, searchFence, hat, Option.none_or, searchFence_skip fun d hd => h d (List.mem_cons_of_mem _ hd)]

def fenceLine : List Char := "```json ar-memory-ledger".toList

theorem fenceAt_line {c : Char} (hc : isPythonSpace c = false) (cs : List Char) :
    fenceAt (fenceLine ++ '\n' :: c :: cs) = findFirst fenceClose (c :: cs) := by
  have hopen : fenceOpen.isPrefixOf (fenceLine ++ '\n' :: c :: cs) = true := rfl
  have hname : (fenceLine ++ '\n' :: c :: cs).drop fenceOpen.length = ' ' :: fenceName ++ '\n' :: c :: cs := rfl
  have hdrop : (' ' :: fenceName ++ '\n' :: c :: cs).dropWhile isPythonSpace = fenceName ++ '\n' :: c :: cs := rfl
  have hprefix : fenceName.isPrefixOf (fenceName ++ '\n' :: c :: cs) = true := rfl
  have hspace : isPythonSpace '\n' = true := rfl
  have htake : ('\n' :: c :: cs).takeWhile isPythonSpace = ['\n'] := by simp [hspace, hc]
  have hrest : ('\n' :: c :: cs).dropWhile isPythonSpace = c :: cs := by simp [hspace, hc]
  rw [fenceAt, hopen, if_pos rfl]
  simp only [hname, hdrop, hprefix, List.drop_left, htake, hrest]
  rfl

theorem searchFence_text {j : List Char} (hj : Unfenced ('{' :: j)) (rest : List Char) :
    searchFence (unlines '\n' ["# Memory Ledger".toList, [], fenceLine, '{' :: j, "```".toList] ++ rest) =
      some ('{' :: j, '\n' :: rest) := by
  have htext : unlines '\n' ["# Memory Ledger".toList, [], fenceLine, '{' :: j, "```".toList] ++ rest =
      ("# Memory Ledger".toList ++ ['\n', '\n']) ++ (fenceLine ++ '\n' :: '{' :: j ++ fenceClose ++ '\n' :: rest) := by
    have hclose : fenceClose = '\n' :: "```".toList := rfl
    simp only [unlines, List.flatMap_cons, List.flatMap_nil, hclose, List.append_assoc, List.cons_append, List.nil_append]
  have hat : fenceAt (fenceLine ++ '\n' :: '{' :: j ++ fenceClose ++ '\n' :: rest) = some ('{' :: j, '\n' :: rest) := by
    have hline := fenceAt_line (c := '{') rfl (j ++ fenceClose ++ '\n' :: rest)
    have hfind := findFirst_unfenced hj ('\n' :: rest)
    simp only [List.append_assoc, List.cons_append] at hline hfind ⊢
    rw [hline, hfind]
  rw [htext, searchFence_skip (by decide)]
  obtain ⟨tail, htail⟩ : ∃ tail, fenceLine ++ '\n' :: '{' :: j ++ fenceClose ++ '\n' :: rest = '`' :: tail := ⟨_, rfl⟩
  rw [htail] at hat ⊢
  rw [searchFence, hat, Option.some_or]

/-! ## The table -/

/-- What a cell can hold: no line break, no pipe. -/
def CellText (s : String) : Prop := ∀ c ∈ s.toList, isLineBreak c = false ∧ c ≠ '|'

def Trimmed (s : String) : Prop := stripText s = s

variable {s repoName codeCommit memoryCommit : String} {row : LedgerRow} {pairs : List LedgerRow}

theorem trimmed_iff : Trimmed s ↔ strip s.toList = s.toList := by
  rw [Trimmed, stripText]
  constructor
  · intro h
    have := congrArg String.toList h
    rwa [String.toList_ofList] at this
  · intro h
    rw [h, String.ofList_toList]

theorem strip_padded (s : String) : strip (' ' :: s.toList ++ [' ']) = strip s.toList := by
  rw [List.cons_append, strip_space_left rfl, strip_space_right rfl]

theorem cellText_padded (h : CellText s) : ∀ c ∈ ' ' :: s.toList ++ [' '], isPipe c = false := by
  intro c hc
  rw [List.cons_append, List.mem_cons, List.mem_append, List.mem_singleton] at hc
  rcases hc with rfl | hc | rfl
  · rfl
  · simpa [isPipe] using (h c hc).2
  · rfl

theorem tableCells_rowLine (hc : CellText row.codeCommit) (hm : CellText row.memoryCommit)
    (hct : Trimmed row.codeCommit) (hmt : Trimmed row.memoryCommit) :
    tableCells (rowLine row) = [row.codeCommit.toList, row.memoryCommit.toList] := by
  have hline : rowLine row = '|' :: ((' ' :: row.codeCommit.toList ++ [' ']) ++ '|' :: (' ' :: row.memoryCommit.toList ++ [' '])) ++
      ['|'] := by
    simp [rowLine]
  generalize hb : (' ' :: row.codeCommit.toList ++ [' ']) ++ '|' :: (' ' :: row.memoryCommit.toList ++ [' ']) = body at hline
  have hstrip : strip (rowLine row) = '|' :: body ++ ['|'] := by
    rw [hline]
    exact strip_eq_self rfl rfl body
  have hfirst : ('|' :: body ++ ['|']).dropWhile isPipe = body ++ ['|'] := by
    rw [← hb]
    rfl
  have hlast : (body ++ ['|']).rdropWhile isPipe = body := by
    have hsplit : body = ((' ' :: row.codeCommit.toList ++ [' ']) ++ '|' :: (' ' :: row.memoryCommit.toList)) ++ [' '] := by
      rw [← hb]
      simp
    rw [List.rdropWhile_concat_pos _ _ _ (by rfl), hsplit, List.rdropWhile_concat_neg _ _ _ (by decide)]
  have hpieces : split isPipe body = [' ' :: row.codeCommit.toList ++ [' '], ' ' :: row.memoryCommit.toList ++ [' ']] := by
    rw [← hb, split_append isPipe rfl, split_of_all (cellText_padded hc), split_of_all (cellText_padded hm)]
    rfl
  rw [tableCells]
  simp only [hstrip, hfirst, hlast, hpieces, List.map_cons, List.map_nil, strip_padded, trimmed_iff.mp hct, trimmed_iff.mp hmt]
  rw [if_pos ⟨rfl, List.getLast?_concat⟩]

theorem mem_tableCells {line cell : List Char} (h : cell ∈ tableCells line) (hl : ∀ c ∈ line, isLineBreak c = false) :
    strip cell = cell ∧ ∀ c ∈ cell, isLineBreak c = false ∧ c ≠ '|' := by
  rw [tableCells] at h
  split at h
  · obtain ⟨piece, hpiece, rfl⟩ := List.mem_map.mp h
    refine ⟨strip_idem piece, fun c hc => ?_⟩
    obtain ⟨hpipe, hin⟩ := split_pure piece hpiece c ((strip_sublist piece).subset hc)
    have hstripped := (List.dropWhile_sublist isPipe).subset ((List.rdropWhile_prefix isPipe _).subset hin)
    exact ⟨hl c ((strip_sublist line).subset hstripped), by simpa [isPipe] using hpipe⟩
  · cases h

theorem ledgerRowsFrom_rowLines : ∀ (rows before : List LedgerRow),
    (∀ row ∈ rows, CellText row.codeCommit ∧ CellText row.memoryCommit ∧ Trimmed row.codeCommit ∧ Trimmed row.memoryCommit) →
    before ++ rows ≠ [] → ledgerRowsFrom before (rows.map rowLine) = .ok (before ++ rows)
  | [], before, _, hne => by
    rw [List.append_nil] at hne ⊢
    rw [List.map_nil, ledgerRowsFrom, if_neg hne]
  | row :: rows, before, h, _ => by
    obtain ⟨hc, hm, hct, hmt⟩ := h row (List.mem_cons_self ..)
    have ih := ledgerRowsFrom_rowLines rows (before ++ [row]) (fun r hr => h r (List.mem_cons_of_mem _ hr)) (by simp)
    rw [List.map_cons, ledgerRowsFrom, tableCells_rowLine hc hm hct hmt]
    simp only [String.ofList_toList]
    rw [ih, List.append_assoc, List.singleton_append]

theorem rows_cells : ∀ {lines : List (List Char)} {before rows : List LedgerRow},
    (∀ line ∈ lines, ∀ c ∈ line, isLineBreak c = false) → ledgerRowsFrom before lines = .ok rows →
    (∀ row ∈ before, CellText row.codeCommit ∧ CellText row.memoryCommit ∧ Trimmed row.codeCommit ∧ Trimmed row.memoryCommit) →
    ∀ row ∈ rows, CellText row.codeCommit ∧ CellText row.memoryCommit ∧ Trimmed row.codeCommit ∧ Trimmed row.memoryCommit
  | [], before, rows, _, h, hbefore => by
    rw [ledgerRowsFrom] at h
    split at h
    · cases h
    · cases h
      exact hbefore
  | line :: lines, before, rows, hlines, h, hbefore => by
    rw [ledgerRowsFrom] at h
    have hrest : ∀ l ∈ lines, ∀ c ∈ l, isLineBreak c = false := fun l hl => hlines l (List.mem_cons_of_mem _ hl)
    split at h
    · split at h
      · exact rows_cells hrest h hbefore
      · cases h
        exact hbefore
    · rename_i code memory hcells
      have hcell : ∀ cell ∈ [code, memory], CellText (String.ofList cell) ∧ Trimmed (String.ofList cell) := by
        intro cell hcell
        obtain ⟨hs, hclean⟩ := mem_tableCells (hcells ▸ hcell) (hlines line (List.mem_cons_self ..))
        refine ⟨fun c hc => hclean c (by rwa [String.toList_ofList] at hc), trimmed_iff.mpr ?_⟩
        rw [String.toList_ofList, hs]
      obtain ⟨hcode, hcodet⟩ := hcell code (by simp)
      obtain ⟨hmemory, hmemoryt⟩ := hcell memory (by simp)
      refine rows_cells hrest h fun row hrow => ?_
      rcases List.mem_append.mp hrow with hrow | hrow
      · exact hbefore row hrow
      · rw [List.mem_singleton.mp hrow]
        exact ⟨hcode, hmemory, hcodet, hmemoryt⟩
    · cases h

theorem parseLedgerLines_cells : ∀ {lines : List (List Char)} {rows : List LedgerRow},
    (∀ line ∈ lines, ∀ c ∈ line, isLineBreak c = false) → parseLedgerLines lines = .ok rows →
    ∀ row ∈ rows, CellText row.codeCommit ∧ CellText row.memoryCommit ∧ Trimmed row.codeCommit ∧ Trimmed row.memoryCommit
  | [], _, _, h => by cases h
  | line :: lines, rows, hlines, h => by
    rw [parseLedgerLines.eq_def] at h
    simp only at h
    have hrest : ∀ l ∈ lines, ∀ c ∈ l, isLineBreak c = false := fun l hl => hlines l (List.mem_cons_of_mem _ hl)
    split at h
    · cases lines with
      | nil => cases h
      | cons next lines =>
        simp only at h
        split at h
        · exact rows_cells (fun l hl => hrest l (List.mem_cons_of_mem _ hl)) h (by simp)
        · cases h
    · exact parseLedgerLines_cells hrest h

theorem metadataGet_eq {metadata : List (String × Value)} {names : List String} (h : metadataGet metadata names ≠ "") :
    Trimmed (metadataGet metadata names) := by
  rw [metadataGet] at h ⊢
  cases hf : (names.filterMap fun name => (field metadata name).bind asText).find? fun s => !isBlank s.toList with
  | none =>
    rw [hf] at h
    exact absurd rfl h
  | some s =>
    show Trimmed (stripText s)
    rw [trimmed_iff, stripText, String.toList_ofList, strip_idem]

/-- A text that the metadata can hold. -/
def Storable (s : String) : Prop := s ≠ "" ∧ Trimmed s

theorem storable_not_blank (h : Storable s) : isBlank s.toList = false := by
  rw [Bool.eq_false_iff]
  intro hb
  have hnil := strip_eq_nil.mpr hb
  rw [trimmed_iff.mp h.2] at hnil
  exact h.1 (String.toList_eq_nil_iff.mp hnil)

theorem metadataGet_field {metadata : List (String × Value)} {name other s : String} (h : Storable s)
    (hf : field metadata name = some (text s)) : metadataGet metadata [name, other] = s ∧ metadataGet metadata [name] = s := by
  have hb := storable_not_blank h
  constructor <;> simp [metadataGet, hf, asText, text, hb, Option.bind, show stripText s = s from h.2]

/-! ## Ledgers -/

structure Ledger.Valid (l : Ledger) : Prop where
  sortOrder : l.sortOrder = newestFirst
  schema : l.schema = ledgerSchema
  first : ∃ rows, l.rows = ⟨l.lastVerifiedCodeCommit, l.lastMemoryContentCommit⟩ :: rows

variable {l : Ledger}

theorem Ledger.Valid.validate (h : l.Valid) : validateLedger l = .ok () := by
  obtain ⟨rows, hrows⟩ := h.first
  simp [validateLedger, h.sortOrder, hrows]

def tailLines (l : Ledger) : List (List Char) :=
  [[], "Newest entries are always inserted at the top.".toList, [], "| Code commit | Memory commit |".toList,
    "| ----------- | ------------- |".toList] ++ l.rows.map rowLine

theorem ledgerLines_eq (l : Ledger) : ledgerLines l = (["# Memory Ledger".toList, [], fenceLine,
    dumps metadataFormat (.obj (ledgerMetadata l)), "```".toList] ++ tailLines l) ++ [[]] := by
  unfold ledgerLines tailLines fenceLine
  simp only [List.cons_append, List.nil_append]

theorem text_of_valid (h : l.Valid) : ∃ j, dumps metadataFormat (.obj (ledgerMetadata l)) = '{' :: j ∧
    ledgerToText l = .ok (unlines '\n' ["# Memory Ledger".toList, [], fenceLine, '{' :: j, "```".toList] ++
      unlines '\n' (tailLines l)) := by
  obtain ⟨body, hbody, -⟩ := dumps_obj metadataFormat (ledgerMetadata l)
  rw [List.cons_append] at hbody
  have htext : ledgerToText l = .ok (['\n'].intercalate (ledgerLines l)) := by
    rw [ledgerToText, h.validate]
    rfl
  rw [ledgerLines_eq, intercalate_unlines, unlines_append, hbody] at htext
  exact ⟨_, hbody, htext⟩

def CleanRow (row : LedgerRow) : Prop :=
  CellText row.codeCommit ∧ CellText row.memoryCommit ∧ Trimmed row.codeCommit ∧ Trimmed row.memoryCommit

structure Ledger.Clean (l : Ledger) : Prop where
  repoName : Storable l.repoName
  baseCodeCommit : Storable l.baseCodeCommit
  baseMemoryCommit : Storable l.baseMemoryCommit
  lastVerifiedCodeCommit : Storable l.lastVerifiedCodeCommit
  lastMemoryContentCommit : Storable l.lastMemoryContentCommit
  rows : ∀ row ∈ l.rows, CleanRow row

theorem missingFields_eq_nil : missingFields l = [] ↔ l.schema ≠ "" ∧ l.repoName ≠ "" ∧ l.baseCodeCommit ≠ "" ∧
    l.baseMemoryCommit ≠ "" ∧ l.lastVerifiedCodeCommit ≠ "" ∧ l.lastMemoryContentCommit ≠ "" ∧ l.sortOrder ≠ "" := by
  rw [missingFields, List.map_eq_nil_iff, List.filter_eq_nil_iff]
  simp only [List.mem_cons, List.not_mem_nil, or_false, decide_eq_true_eq, forall_eq_or_imp, forall_eq, ne_eq]

theorem clean_of_parse {t : List Char} (h : parseLedgerText t = .ok l) : l.Clean := by
  rw [parseLedgerText] at h
  split at h
  · cases h
  rename_i rest _
  split at h
  · cases h
  split at h
  · cases h
  rename_i metadata _
  simp only at h
  split at h
  · cases h
  rename_i hmissing
  split at h
  · cases h
  obtain ⟨-, hrepo, hcode, hmemory, hlastCode, hlastMemory, -⟩ := missingFields_eq_nil.mp (not_not.mp hmissing)
  cases hrows : parseLedgerRows rest with
  | error e =>
    rw [hrows] at h
    cases h
  | ok rows =>
    rw [hrows] at h
    have hl : parsedLedger metadata rows = l := by
      cases hvalid : validateLedger (parsedLedger metadata rows) with
      | error e => simp [bind, Except.bind, hvalid] at h
      | ok u => simpa [bind, Except.bind, hvalid] using h
    have hcells := parseLedgerLines_cells (fun line hline => breakLines_pure line hline) hrows
    subst hl
    exact ⟨⟨hrepo, metadataGet_eq hrepo⟩, ⟨hcode, metadataGet_eq hcode⟩, ⟨hmemory, metadataGet_eq hmemory⟩,
      ⟨hlastCode, metadataGet_eq hlastCode⟩, ⟨hlastMemory, metadataGet_eq hlastMemory⟩, hcells⟩

theorem splitlines_unlines {ls : List (List Char)} (h : ∀ l ∈ ls, ∀ c ∈ l, isLineBreak c = false) :
    splitlines (unlines '\n' ls) = ls := by
  have hcr : '\r' ∉ unlines '\n' ls := by
    intro hm
    obtain ⟨l, hl, hc⟩ := List.mem_flatMap.mp hm
    rcases List.mem_append.mp hc with hc | hc
    · exact absurd (h l hl _ hc) (by decide)
    · exact absurd (List.mem_singleton.mp hc) (by decide)
  rw [splitlines_of_no_cr hcr, breakLines_unlines isLineBreak rfl]
  clear hcr
  induction ls with
  | nil => rfl
  | cons l ls ih =>
    rw [List.forall_mem_cons] at h
    rw [List.flatMap_cons, split_of_all h.1, ih h.2]
    rfl

theorem rowLine_pure (hc : CellText row.codeCommit) (hm : CellText row.memoryCommit) :
    ∀ c ∈ rowLine row, isLineBreak c = false := by
  intro c h
  simp only [rowLine, List.mem_append] at h
  rcases h with (((h | h) | h) | h) | h
  · exact (by decide : ∀ c ∈ "| ".toList, isLineBreak c = false) c h
  · exact (hc c h).1
  · exact (by decide : ∀ c ∈ " | ".toList, isLineBreak c = false) c h
  · exact (hm c h).1
  · exact (by decide : ∀ c ∈ " |".toList, isLineBreak c = false) c h

theorem parseLedgerRows_tail (hc : ∀ row ∈ l.rows, CleanRow row) (hne : l.rows ≠ []) :
    parseLedgerRows ('\n' :: unlines '\n' (tailLines l)) = .ok l.rows := by
  have hhead : '\n' :: unlines '\n' (tailLines l) = unlines '\n' ([] :: tailLines l) := rfl
  have hpure : ∀ line ∈ [] :: tailLines l, ∀ c ∈ line, isLineBreak c = false := by
    intro line hline
    rw [tailLines, ← List.cons_append, List.mem_append] at hline
    rcases hline with hline | hline
    · have hall : ∀ line ∈ ([[], [], "Newest entries are always inserted at the top.".toList, [],
          "| Code commit | Memory commit |".toList, "| ----------- | ------------- |".toList] : List (List Char)),
          ∀ c ∈ line, isLineBreak c = false := by decide
      exact hall line hline
    · obtain ⟨row, hrow, rfl⟩ := List.mem_map.mp hline
      exact rowLine_pure (hc row hrow).1 (hc row hrow).2.1
  have hnil : ¬ (tableCells []).map lower = headerCells := by decide
  have hnewest : ¬ (tableCells "Newest entries are always inserted at the top.".toList).map lower = headerCells := by decide
  have hheader : (tableCells "| Code commit | Memory commit |".toList).map lower = headerCells := by decide
  have hseparator : isSeparatorRow "| ----------- | ------------- |".toList = true := by decide
  rw [parseLedgerRows, hhead, splitlines_unlines hpure, tailLines]
  simp only [List.cons_append, List.nil_append]
  rw [parseLedgerLines, if_neg hnil, parseLedgerLines, if_neg hnil, parseLedgerLines, if_neg hnewest, parseLedgerLines, if_neg hnil,
    parseLedgerLines, if_pos hheader]
  simp only [hseparator, if_true]
  exact ledgerRowsFrom_rowLines l.rows [] hc hne

theorem parse_of_clean {l : Ledger} (h : l.Valid) (hc : l.Clean) : ∃ t, ledgerToText l = .ok t ∧ parseLedgerText t = .ok l := by
  obtain ⟨j, hj, htext⟩ := text_of_valid h
  refine ⟨_, htext, ?_⟩
  have hunfenced : Unfenced ('{' :: j) := by
    rw [← hj]
    refine unfenced_metadata fun e he => ?_
    simp only [List.mem_cons, List.not_mem_nil, or_false] at he
    rcases he with rfl | rfl | rfl | rfl | rfl | rfl | rfl <;> exact ⟨_, rfl⟩
  have hloads : loads ('{' :: j) = some (.obj (ledgerMetadata l)) := by rw [← hj, loads_dumps]
  obtain ⟨rows, hfirst⟩ := h.first
  have hrows := parseLedgerRows_tail hc.rows (by simp [hfirst])
  have hschema : Storable l.schema := by
    rw [h.schema]
    exact ⟨by decide, by unfold Trimmed; decide⟩
  have horder : Storable l.sortOrder := by
    rw [h.sortOrder]
    exact ⟨by decide, by unfold Trimmed; decide⟩
  have hparsed : ∀ rows, parsedLedger (ledgerMetadata l) rows = { l with rows := rows } := by
    intro rows
    have hget : ∀ {name other s : String}, Storable s → field (ledgerMetadata l) name = some (text s) →
        metadataGet (ledgerMetadata l) [name, other] = s := fun hs hf => (metadataGet_field hs hf).1
    have hone : metadataGet (ledgerMetadata l) ["schema"] = l.schema := by
      rw [h.schema] at hschema ⊢
      exact (@metadataGet_field _ "schema" "schema" _ hschema rfl).2
    rw [parsedLedger, hget hc.repoName rfl, hget hc.baseCodeCommit rfl, hget hc.baseMemoryCommit rfl,
      hget hc.lastVerifiedCodeCommit rfl, hget hc.lastMemoryContentCommit rfl, hget horder rfl, hone]
  have hmissing : ∀ rows, missingFields { l with rows := rows } = [] := fun rows => missingFields_eq_nil.mpr
    ⟨hschema.1, hc.repoName.1, hc.baseCodeCommit.1, hc.baseMemoryCommit.1, hc.lastVerifiedCodeCommit.1,
      hc.lastMemoryContentCommit.1, horder.1⟩
  have hknown : ¬ (l.schema ≠ ledgerSchema ∧ l.schema ≠ legacyLedgerSchema) := fun hne => hne.1 h.schema
  rw [parseLedgerText, searchFence_text hunfenced]
  simp only [hloads, asObject, hparsed, hmissing, ne_eq, not_true_eq_false, if_false, if_neg hknown, hrows]
  show (validateLedger l).bind (fun _ => .ok l) = .ok l
  rw [h.validate]
  rfl

/-! ## Runs of mappings -/

/-- A run of calls; a call that raises leaves the ledger as it was. -/
def prependAll (ledger : Ledger) (calls : List (String × String)) : Ledger :=
  calls.foldl (fun ledger c => (prependMapping ledger c.1 c.2).toOption.getD ledger) ledger

def prepended (calls : List (String × String)) : List LedgerRow :=
  (calls.map fun c => ⟨stripText c.1, stripText c.2⟩).filter fun row => row.codeCommit ≠ "" ∧ row.memoryCommit ≠ ""

/-- The pairs of a run, the initial one first. -/
def history (codeCommit memoryCommit : String) (calls : List (String × String)) : List LedgerRow :=
  ⟨codeCommit, memoryCommit⟩ :: prepended calls

structure Records (l : Ledger) (repoName codeCommit memoryCommit : String) (pairs : List LedgerRow) : Prop where
  repoName : l.repoName = repoName
  baseCodeCommit : l.baseCodeCommit = codeCommit
  baseMemoryCommit : l.baseMemoryCommit = memoryCommit
  sortOrder : l.sortOrder = newestFirst
  schema : l.schema = ledgerSchema
  rows : l.rows = pairs.reverse
  last : pairs.getLast? = some ⟨l.lastVerifiedCodeCommit, l.lastMemoryContentCommit⟩

theorem records_call (h : Records l repoName codeCommit memoryCommit pairs) (c : String × String) :
    Records ((prependMapping l c.1 c.2).toOption.getD l) repoName codeCommit memoryCommit (pairs ++ prepended [c]) := by
  rw [prependMapping]
  by_cases hempty : stripText c.1 = "" ∨ stripText c.2 = ""
  · have hnone : prepended [c] = [] := by
      rw [prepended, List.filter_eq_nil_iff]
      intro row hrow
      rw [List.map_cons, List.map_nil, List.mem_singleton] at hrow
      subst hrow
      rcases hempty with hempty | hempty <;> simp [hempty]
    simp only [if_pos hempty, hnone, List.append_nil]
    exact h
  have hone : prepended [c] = [⟨stripText c.1, stripText c.2⟩] := by
    rw [prepended, List.map_cons, List.map_nil, List.filter_cons_of_pos (by simpa [not_or] using hempty), List.filter_nil]
  simp only [if_neg hempty, hone]
  exact { h with rows := by simp [Except.toOption, h.rows], last := by simp [Except.toOption] }

theorem records_run (repoName codeCommit memoryCommit : String) (calls : List (String × String)) :
    Records (prependAll (createInitialLedger repoName codeCommit memoryCommit) calls) repoName codeCommit memoryCommit
      (history codeCommit memoryCommit calls) := by
  have hfold : ∀ (calls : List (String × String)) (l : Ledger) (pairs : List LedgerRow),
      Records l repoName codeCommit memoryCommit pairs →
      Records (prependAll l calls) repoName codeCommit memoryCommit (pairs ++ prepended calls) := by
    intro calls
    induction calls with
    | nil => exact fun l pairs h => by simpa [prependAll, prepended] using h
    | cons c calls ih =>
      intro l pairs h
      have hrest := ih _ _ (records_call h c)
      have hcons : prepended (c :: calls) = prepended [c] ++ prepended calls := by
        simp only [prepended, List.map_cons, List.map_nil, ← List.filter_append, List.singleton_append]
      rwa [List.append_assoc, ← hcons] at hrest
  exact hfold calls _ [⟨codeCommit, memoryCommit⟩] ⟨rfl, rfl, rfl, rfl, rfl, rfl, rfl⟩

theorem Records.valid (h : Records l repoName codeCommit memoryCommit pairs) : l.Valid := by
  refine ⟨h.sortOrder, h.schema, ?_⟩
  obtain ⟨before, hpairs⟩ := List.getLast?_eq_some_iff.mp h.last
  exact ⟨before.reverse, by rw [h.rows, hpairs, List.reverse_append]; rfl⟩

def latest (pairs : List LedgerRow) (codeCommit : String) : Option LedgerRow :=
  pairs.reverse.find? fun row => stripText row.codeCommit = stripText codeCommit

theorem mem_prepended {calls : List (String × String)} (h : row ∈ prepended calls) :
    Storable row.codeCommit ∧ Storable row.memoryCommit := by
  rw [prepended, List.mem_filter] at h
  obtain ⟨hmap, hne⟩ := h
  obtain ⟨c, -, rfl⟩ := List.mem_map.mp hmap
  have htrim : ∀ s, Trimmed (stripText s) := fun s => by
    rw [trimmed_iff, stripText, String.toList_ofList, strip_idem]
  simp only [ne_eq, decide_eq_true_eq] at hne
  exact ⟨⟨hne.1, htrim _⟩, hne.2, htrim _⟩

/-- A ledger reads back, its first row is the last pair and the verified one, and `find_mapping` gives the last pair of each
commit. -/
structure Faithful (l : Ledger) (pairs : List LedgerRow) : Prop where
  roundTrip : ∃ t, ledgerToText l = .ok t ∧ parseLedgerText t = .ok l
  first : l.rows.head? = pairs.getLast?
  verified : l.rows.head? = some ⟨l.lastVerifiedCodeCommit, l.lastMemoryContentCommit⟩
  mapping : ∀ codeCommit, findMapping l codeCommit = latest pairs codeCommit

end AgentsRemember.MemoryLedger
