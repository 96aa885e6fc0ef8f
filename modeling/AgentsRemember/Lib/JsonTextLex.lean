import AgentsRemember.Lib.JsonTextSound
import AgentsRemember.Lib.Lines

/-!
# Where a character of a JSON text stands

`Lex` follows a text through its strings and brackets. A text that reads as a
document ends outside a string with every bracket closed; a written object is
open at every place before its end, so no proper prefix of it is a document
(`loads_of_prefix`). `Legal` says what a compact text has outside its strings.
-/

namespace Lib

namespace JsonText

inductive Mode
  | outside
  | inside
  | escaped

structure Lex where
  mode : Mode
  depth : Int

def Lex.step (s : Lex) (c : Char) : Lex :=
  match s.mode with
  | .escaped => ⟨.inside, s.depth⟩
  | .inside => if c = doubleQuote then ⟨.outside, s.depth⟩ else if c = backslash then ⟨.escaped, s.depth⟩ else s
  | .outside =>
    if c = doubleQuote then ⟨.inside, s.depth⟩
    else if c = '{' ∨ c = '[' then ⟨.outside, s.depth + 1⟩
    else if c = '}' ∨ c = ']' then ⟨.outside, s.depth - 1⟩
    else s

def Lex.scan (s : Lex) (cs : List Char) : Lex := cs.foldl Lex.step s

@[simp] theorem Lex.scan_nil (s : Lex) : s.scan [] = s := rfl

@[simp] theorem Lex.scan_cons (s : Lex) (c : Char) (cs : List Char) : s.scan (c :: cs) = (s.step c).scan cs := rfl

@[simp] theorem Lex.scan_append (s : Lex) (cs ds : List Char) : s.scan (cs ++ ds) = (s.scan cs).scan ds := List.foldl_append

def Neutral (cs : List Char) : Prop := ∀ d, (Lex.mk .outside d).scan cs = ⟨.outside, d⟩

theorem neutral_nil : Neutral [] := fun _ => rfl

variable {cs ds rest body p q : List Char} {c o : Char}

theorem Neutral.append (hc : Neutral cs) (hd : Neutral ds) : Neutral (cs ++ ds) := by
  intro d
  rw [Lex.scan_append, hc d, hd d]

def Inert (c : Char) : Prop := c ≠ doubleQuote ∧ c ≠ '{' ∧ c ≠ '[' ∧ c ≠ '}' ∧ c ≠ ']'

theorem step_inert (h : Inert c) (d : Int) : (Lex.mk .outside d).step c = ⟨.outside, d⟩ := by
  obtain ⟨hq, h1, h2, h3, h4⟩ := h
  simp [Lex.step, hq, h1, h2, h3, h4]

theorem step_backslash (d : Int) : (Lex.mk .inside d).step backslash = ⟨.escaped, d⟩ := rfl

theorem step_escaped (c : Char) (d : Int) : (Lex.mk .escaped d).step c = ⟨.inside, d⟩ := rfl

theorem step_plain (hq : c ≠ doubleQuote) (hb : c ≠ backslash) (d : Int) :
    (Lex.mk .inside d).step c = ⟨.inside, d⟩ := by
  simp [Lex.step, hq, hb]

theorem neutral_inert (h : ∀ c ∈ cs, Inert c) : Neutral cs := by
  intro d
  induction cs with
  | nil => rfl
  | cons c cs ih =>
    rw [Lex.scan_cons, step_inert (h c (by simp)), ih fun c' hc => h c' (List.mem_cons_of_mem _ hc)]

theorem Neutral.enclosed (h : Neutral cs) (ho : o = '{' ∨ o = '[') (hc : c = '}' ∨ c = ']') :
    Neutral (o :: cs ++ [c]) := by
  intro d
  have hopen : (Lex.mk .outside d).step o = ⟨.outside, d + 1⟩ := by
    rcases ho with rfl | rfl <;> simp [Lex.step, doubleQuote]
  have hclose : (Lex.mk .outside (d + 1)).step c = ⟨.outside, d⟩ := by
    rcases hc with rfl | rfl <;> simp [Lex.step, doubleQuote]
  rw [List.cons_append, Lex.scan_cons, hopen, Lex.scan_append, h, Lex.scan_cons, hclose]
  rfl

theorem inert_space (h : isSpace c = true) : Inert c := by
  simp only [isSpace, Bool.or_eq_true, decide_eq_true_eq] at h
  rcases h with ((rfl | rfl) | rfl) | rfl <;> (unfold Inert; decide)

theorem inert_number (h : isNumberChar c = true) : Inert c := by
  refine ⟨?_, ?_, ?_, ?_, ?_⟩ <;> rintro rfl <;> exact absurd h (by decide)

theorem inert_literals : ∀ l ∈ literals, ∀ c ∈ l.1, Inert c := by
  unfold Inert
  decide

/-! ## What parses is balanced -/

theorem scanString_scan (d : Int) : ∀ (cs body rest : List Char), scanString cs = some (body, rest) →
    ∃ pre, cs = pre ++ rest ∧ (Lex.mk .inside d).scan pre = ⟨.outside, d⟩
  | [], body, rest, h => by simp [scanString] at h
  | [c], body, rest, h => by
    rw [scanString] at h
    split at h
    · rename_i hc
      cases h
      exact ⟨[c], by simp, by simp [Lex.step, hc]⟩
    · cases h
  | c :: e :: cs, body, rest, h => by
    rw [scanString] at h
    split at h
    · rename_i hc
      cases h
      exact ⟨[c], rfl, by simp [Lex.step, hc]⟩
    rename_i hq
    split at h
    · rename_i hb
      obtain ⟨r, hr, he⟩ := Option.map_eq_some_iff.mp h
      cases he
      obtain ⟨pre, hpre, hscan⟩ := scanString_scan d cs r.1 r.2 hr
      refine ⟨c :: e :: pre, by rw [List.cons_append, List.cons_append, ← hpre], ?_⟩
      rw [Lex.scan_cons, Lex.scan_cons, hb, step_backslash, step_escaped, hscan]
    rename_i hb
    split at h
    · cases h
    obtain ⟨r, hr, he⟩ := Option.map_eq_some_iff.mp h
    cases he
    obtain ⟨pre, hpre, hscan⟩ := scanString_scan d (e :: cs) r.1 r.2 hr
    refine ⟨c :: pre, by rw [List.cons_append, ← hpre], ?_⟩
    rw [Lex.scan_cons, step_plain hq hb, hscan]

def Consumes (cs rest : List Char) : Prop := ∃ pre, cs = pre ++ rest ∧ Neutral pre

theorem Consumes.trans {es : List Char} (h : Consumes cs ds) (h' : Consumes ds es) : Consumes cs es := by
  obtain ⟨p, rfl, hp⟩ := h
  obtain ⟨q, rfl, hq⟩ := h'
  exact ⟨p ++ q, by rw [List.append_assoc], hp.append hq⟩

theorem consumes_skipSpace (cs : List Char) : Consumes cs (skipSpace cs) := by
  refine ⟨cs.takeWhile isSpace, (List.takeWhile_append_dropWhile).symm, neutral_inert fun c hc => inert_space ?_⟩
  exact (List.all_eq_true.mp List.all_takeWhile) c hc

theorem consumes_inert (h : Inert c) (cs : List Char) : Consumes (c :: cs) cs :=
  ⟨[c], rfl, neutral_inert (by simpa using h)⟩

theorem consumes_string {s : String} (h : parseString cs = some (s, rest)) : Consumes (doubleQuote :: cs) rest := by
  rw [parseString] at h
  cases hs : scanString cs with
  | none => simp [hs] at h
  | some r =>
    obtain ⟨body, rest'⟩ := r
    simp only [hs] at h
    obtain ⟨t, -, ht⟩ := Option.map_eq_some_iff.mp h
    obtain ⟨-, hrest⟩ := Prod.mk.inj ht
    subst hrest
    obtain ⟨pre, rfl, -⟩ := scanString_scan 0 cs body _ hs
    refine ⟨doubleQuote :: pre, rfl, fun d => ?_⟩
    obtain ⟨pre', hpre', hscan⟩ := scanString_scan d _ body _ hs
    have heq : pre = pre' := List.append_cancel_right hpre'
    rw [heq]
    simpa [Lex.step] using hscan

theorem consumes_scalar {s : Scalar} (h : parseScalar cs = some (s, rest)) : Consumes cs rest := by
  rw [parseScalar, Option.or_eq_some_iff] at h
  rcases h with h | ⟨-, h⟩
  · obtain ⟨l, hl, he⟩ := Option.map_eq_some_iff.mp h
    cases he
    have hpre : l.1 <+: cs := List.isPrefixOf_iff_prefix.mp (List.find?_some (p := fun l : List Char × Scalar => l.1.isPrefixOf cs) hl)
    have hmem := List.mem_of_find?_eq_some hl
    obtain ⟨t, rfl⟩ := hpre
    exact ⟨l.1, by rw [List.drop_left], neutral_inert (inert_literals l hmem)⟩
  unfold parseNumber at h
  simp only at h
  split at h
  · cases h
    refine ⟨cs.takeWhile isNumberChar, (List.takeWhile_append_dropWhile).symm, neutral_inert fun c hc => inert_number ?_⟩
    exact (List.all_eq_true.mp List.all_takeWhile) c hc
  · cases h

theorem consumes_key {k : String} (h : parseKey cs = some (k, rest)) : Consumes cs rest := by
  refine (consumes_skipSpace cs).trans ?_
  rw [parseKey] at h
  cases hc : skipSpace cs with
  | nil => simp [hc] at h
  | cons c cs' =>
    simp only [hc] at h
    split at h
    · rename_i hq
      subst hq
      cases hs : parseString cs' with
      | none => simp [hs] at h
      | some r =>
        obtain ⟨k', rest'⟩ := r
        simp only [hs] at h
        split at h
        · rename_i hcolon
          obtain ⟨-, hrest⟩ := Prod.mk.inj (Option.some.inj h)
          refine ((consumes_string hs).trans (consumes_skipSpace rest')).trans ?_
          obtain ⟨tail, htail⟩ := List.head?_eq_some_iff.mp hcolon
          rw [htail, List.tail_cons] at hrest
          rw [htail, ← hrest]
          exact consumes_inert (by unfold Inert; decide) tail
        · cases h
    · cases h

def Closes (c : Char) (cs rest : List Char) : Prop := Consumes cs (c :: rest)

theorem Closes.enclosed (h : Closes c cs rest) (ho : o = '{' ∨ o = '[') (hc : c = '}' ∨ c = ']') :
    Consumes (o :: cs) rest := by
  obtain ⟨pre, rfl, hpre⟩ := h
  exact ⟨o :: pre ++ [c], by simp, hpre.enclosed ho hc⟩

theorem closes_of_head (h : (skipSpace cs).head? = some c) : Closes c cs (skipSpace cs).tail := by
  obtain ⟨tail, htail⟩ := List.head?_eq_some_iff.mp h
  have hspace := consumes_skipSpace cs
  rw [htail] at hspace ⊢
  exact hspace

mutual
theorem consumes_value : ∀ (n : Nat) {cs rest : List Char} {v : Value}, parseValue n cs = some (v, rest) → Consumes cs rest
  | 0, cs, rest, v, h => by simp [parseValue] at h
  | n + 1, cs, rest, v, h => by
    refine (consumes_skipSpace cs).trans ?_
    rw [parseValue] at h
    cases hc : skipSpace cs with
    | nil => simp [hc] at h
    | cons c cs' =>
      simp only [hc] at h
      split at h
      · rename_i hq
        obtain ⟨r, hr, he⟩ := Option.map_eq_some_iff.mp h
        cases he
        rw [hq]
        exact consumes_string hr
      split at h
      · rename_i hopen
        split at h
        · rename_i hclose
          cases h
          exact (closes_of_head hclose).enclosed (.inr hopen) (.inr rfl)
        obtain ⟨r, hr, he⟩ := Option.map_eq_some_iff.mp h
        cases he
        exact (closes_items n hr).enclosed (.inr hopen) (.inr rfl)
      split at h
      · rename_i hopen
        split at h
        · rename_i hclose
          cases h
          exact (closes_of_head hclose).enclosed (.inl hopen) (.inl rfl)
        obtain ⟨r, hr, he⟩ := Option.map_eq_some_iff.mp h
        cases he
        exact (closes_fields n hr).enclosed (.inl hopen) (.inl rfl)
      obtain ⟨r, hr, he⟩ := Option.map_eq_some_iff.mp h
      cases he
      exact consumes_scalar hr
theorem closes_items : ∀ (n : Nat) {cs rest : List Char} {items : List Value}, parseItems n cs = some (items, rest) →
    Closes ']' cs rest
  | 0, cs, rest, v, h => by simp [parseItems] at h
  | n + 1, cs, rest, items, h => by
    rw [parseItems] at h
    cases hv : parseValue n cs with
    | none => simp [hv] at h
    | some r =>
      obtain ⟨v, rest'⟩ := r
      simp only [hv] at h
      have hspace := (consumes_value n hv).trans (consumes_skipSpace rest')
      cases hc : skipSpace rest' with
      | nil => simp [hc] at h
      | cons c rest'' =>
        rw [hc] at hspace
        simp only [hc] at h
        split at h
        · rename_i hcomma
          obtain ⟨r, hr, he⟩ := Option.map_eq_some_iff.mp h
          cases he
          subst hcomma
          exact (hspace.trans (consumes_inert (by unfold Inert; decide) rest'')).trans (closes_items n hr)
        split at h
        · rename_i hclose
          cases h
          rw [hclose] at hspace
          exact hspace
        · cases h
theorem closes_fields : ∀ (n : Nat) {cs rest : List Char} {fields : List (String × Value)},
    parseFields n cs = some (fields, rest) → Closes '}' cs rest
  | 0, cs, rest, v, h => by simp [parseFields] at h
  | n + 1, cs, rest, fields, h => by
    rw [parseFields] at h
    cases hk : parseKey cs with
    | none => simp [hk] at h
    | some r =>
      obtain ⟨k, rest₁⟩ := r
      simp only [hk] at h
      cases hv : parseValue n rest₁ with
      | none => simp [hv] at h
      | some r =>
        obtain ⟨v, rest'⟩ := r
        simp only [hv] at h
        have hspace := ((consumes_key hk).trans (consumes_value n hv)).trans (consumes_skipSpace rest')
        cases hc : skipSpace rest' with
        | nil => simp [hc] at h
        | cons c rest'' =>
          rw [hc] at hspace
          simp only [hc] at h
          split at h
          · rename_i hcomma
            obtain ⟨r, hr, he⟩ := Option.map_eq_some_iff.mp h
            cases he
            subst hcomma
            exact (hspace.trans (consumes_inert (by unfold Inert; decide) rest'')).trans (closes_fields n hr)
          split at h
          · rename_i hclose
            cases h
            rw [hclose] at hspace
            exact hspace
          · cases h
end

theorem neutral_of_loads {v : Value} (h : loads cs = some v) : Neutral cs := by
  rw [loads] at h
  cases hv : parseValue (cs.length + 1) cs with
  | none => simp [hv] at h
  | some r =>
    obtain ⟨w, rest⟩ := r
    simp only [hv] at h
    split at h
    · rename_i hrest
      have hall := (consumes_value _ hv).trans (consumes_skipSpace rest)
      rw [hrest] at hall
      obtain ⟨pre, hpre, hneutral⟩ := hall
      rw [hpre, List.append_nil]
      exact hneutral
    · cases h

/-! ## What is written stays open -/

def Level (cs : List Char) : Prop :=
  Neutral cs ∧ ∀ p q, cs = p ++ q → ∀ d, d ≤ ((Lex.mk .outside d).scan p).depth

theorem level_nil : Level [] := by
  refine ⟨neutral_nil, fun p q h d => ?_⟩
  obtain ⟨rfl, -⟩ := List.append_eq_nil_iff.mp h.symm
  exact Int.le_refl d

theorem Level.append (hc : Level cs) (hd : Level ds) : Level (cs ++ ds) := by
  refine ⟨hc.1.append hd.1, fun p q h d => ?_⟩
  rcases List.append_eq_append_iff.mp h with ⟨t, rfl, ht⟩ | ⟨t, ht, -⟩
  · rw [Lex.scan_append, hc.1 d]
    exact hd.2 t q ht d
  · exact hc.2 p t ht d

theorem level_inert (h : ∀ c ∈ cs, Inert c) : Level cs := by
  refine ⟨neutral_inert h, fun p q hpq d => ?_⟩
  have hprefix : ∀ c ∈ p, Inert c := fun c hc => h c (by rw [hpq]; exact List.mem_append_left q hc)
  have hp := neutral_inert hprefix d
  exact Int.le_of_eq (congrArg Lex.depth hp).symm

theorem open_step (ho : o = '{' ∨ o = '[') (d : Int) : (Lex.mk .outside d).step o = ⟨.outside, d + 1⟩ := by
  rcases ho with rfl | rfl <;> simp [Lex.step, doubleQuote]

theorem Level.open_prefix (h : Level body) (ho : o = '{' ∨ o = '[') (hpq : o :: body ++ [c] = p ++ q) (hp : p ≠ [])
    (hq : q ≠ []) (d : Int) : d + 1 ≤ ((Lex.mk .outside d).scan p).depth := by
  obtain ⟨x, p, rfl⟩ := List.exists_cons_of_ne_nil hp
  obtain ⟨q', y, rfl⟩ := List.eq_nil_or_concat q |>.resolve_left hq
  rw [List.cons_append, List.cons_append, List.cons.injEq] at hpq
  obtain ⟨rfl, hbody⟩ := hpq
  rw [List.concat_eq_append, ← List.append_assoc] at hbody
  have hb : body = p ++ q' := List.append_inj_left' hbody rfl
  rw [Lex.scan_cons, open_step ho]
  exact h.2 p q' hb (d + 1)

theorem Level.enclosed (h : Level body) (ho : o = '{' ∨ o = '[') (hc : c = '}' ∨ c = ']') :
    Level (o :: body ++ [c]) := by
  refine ⟨h.1.enclosed ho hc, fun p q hpq d => ?_⟩
  by_cases hp : p = []
  · rw [hp]
    exact Int.le_refl d
  by_cases hq : q = []
  · rw [hq, List.append_nil] at hpq
    rw [← hpq]
    exact Int.le_of_eq (congrArg Lex.depth (h.1.enclosed ho hc d)).symm
  · have := h.open_prefix ho hpq hp hq d
    omega

def Within (cs : List Char) : Prop :=
  ∀ d, (Lex.mk .inside d).scan cs = ⟨.inside, d⟩ ∧ ∀ p q, cs = p ++ q → ((Lex.mk .inside d).scan p).depth = d

theorem within_nil : Within [] := by
  refine fun d => ⟨rfl, fun p q h => ?_⟩
  obtain ⟨rfl, -⟩ := List.append_eq_nil_iff.mp h.symm
  rfl

theorem Within.append (hc : Within cs) (hd : Within ds) : Within (cs ++ ds) := by
  refine fun d => ⟨by rw [Lex.scan_append, (hc d).1, (hd d).1], fun p q h => ?_⟩
  rcases List.append_eq_append_iff.mp h with ⟨t, rfl, ht⟩ | ⟨t, ht, -⟩
  · rw [Lex.scan_append, (hc d).1]
    exact (hd d).2 t q ht
  · exact (hc d).2 p t ht

theorem within_plain (hq : c ≠ doubleQuote) (hb : c ≠ backslash) : Within [c] := by
  refine fun d => ⟨step_plain hq hb d, fun p q h => ?_⟩
  rcases List.append_eq_singleton_iff.mp h.symm with ⟨rfl, -⟩ | ⟨rfl, -⟩
  · rfl
  · rw [Lex.scan_cons, step_plain hq hb d]
    rfl

theorem within_escape (e : Char) : Within [backslash, e] := by
  refine fun d => ⟨rfl, fun p q h => ?_⟩
  cases p with
  | nil => rfl
  | cons a p =>
    obtain ⟨ha, h⟩ := List.cons.inj h
    rcases List.append_eq_singleton_iff.mp h.symm with ⟨rfl, -⟩ | ⟨rfl, -⟩ <;> rw [← ha] <;> rfl

theorem within_hexDigits (n : Nat) : Within (hexDigits 4 n) := by
  have h : ∀ cs : List Char, (∀ c ∈ cs, c ≠ doubleQuote ∧ c ≠ backslash) → Within cs := by
    intro cs hcs
    induction cs with
    | nil => exact within_nil
    | cons c cs ih =>
      obtain ⟨hq, hb⟩ := hcs c (by simp)
      exact (within_plain hq hb).append (ih fun c' hc' => hcs c' (List.mem_cons_of_mem _ hc'))
  exact h _ fun c hc => ⟨(hexDigit_plain hc).1, (hexDigit_plain hc).2.1⟩

theorem within_unicodeEscape (n : Nat) : Within (unicodeEscape n) := (within_escape 'u').append (within_hexDigits n)

theorem within_escapeChar (ascii : Bool) (c : Char) : Within (escapeChar ascii c) := by
  unfold escapeChar
  cases hl : Dict.lookupIn c shortEscapes with
  | some e => exact within_escape e
  | none =>
    simp only
    split
    · split
      · exact within_unicodeEscape _
      · exact (within_unicodeEscape _).append (within_unicodeEscape _)
    · obtain ⟨hq, hb⟩ := plain_of_not_short (Dict.lookupIn_eq_none.mp hl)
      exact within_plain hq hb

theorem within_escapeText (ascii : Bool) (cs : List Char) : Within (escape ascii cs) := by
  induction cs with
  | nil => exact within_nil
  | cons c cs ih => exact (within_escapeChar ascii c).append ih

theorem level_printString (f : Format) (s : String) : Level (printString f s) := by
  have hw := within_escapeText f.ascii s.toList
  have hneutral : Neutral (printString f s) := by
    intro d
    have hopen : (Lex.mk .outside d).step doubleQuote = ⟨.inside, d⟩ := rfl
    rw [printString, List.cons_append, Lex.scan_cons, hopen, Lex.scan_append, (hw d).1]
    rfl
  refine ⟨hneutral, fun p q h d => ?_⟩
  cases p with
  | nil => exact Int.le_refl d
  | cons x p =>
    rw [printString, List.cons_append, List.cons_append, List.cons.injEq] at h
    obtain ⟨rfl, h⟩ := h
    have hopen : (Lex.mk .outside d).step doubleQuote = ⟨.inside, d⟩ := rfl
    rw [Lex.scan_cons, hopen]
    rcases List.append_eq_append_iff.mp h with ⟨t, rfl, ht⟩ | ⟨t, ht, -⟩
    · rw [Lex.scan_append, (hw d).1]
      rcases List.append_eq_singleton_iff.mp ht.symm with ⟨rfl, -⟩ | ⟨rfl, -⟩
      · exact Int.le_refl d
      · exact Int.le_refl d
    · rw [(hw d).2 p t ht]

theorem level_newline (f : Format) (level : Nat) : Level (newline f level) :=
  level_inert fun c hc => inert_space (space_newline f level c hc)

theorem level_comma (f : Format) : Level (comma f) := by
  refine level_inert fun c hc => ?_
  rcases List.mem_cons.mp hc with rfl | hc
  · unfold Inert
    decide
  · exact inert_space (space_replicate _ c hc)

theorem level_colon (f : Format) : Level (colon f) := by
  refine level_inert fun c hc => ?_
  rcases List.mem_cons.mp hc with rfl | hc
  · unfold Inert
    decide
  · exact inert_space (space_replicate _ c hc)

theorem level_printScalar (f : Format) (s : Scalar) : Level (printScalar f s) := by
  cases s with
  | null => exact level_inert (inert_literals (_, .null) (by simp [literals]))
  | bool b =>
    cases b with
    | true => exact level_inert (inert_literals (_, .bool true) (by simp [literals]))
    | false => exact level_inert (inert_literals (_, .bool false) (by simp [literals]))
  | number n => exact level_inert fun c hc => inert_number ((isNumber_chars n.valid).1 c hc)
  | str s => exact level_printString f s

mutual
theorem level_print (f : Format) : ∀ (v : Value) (level : Nat), Level (print f level v)
  | .scalar s, _ => level_printScalar f s
  | .arr [], _ => level_nil.enclosed (.inr rfl) (.inr rfl)
  | .arr (v :: items), level => by
    have h := (((level_newline f (level + 1)).append (level_print f v (level + 1))).append
      (level_printItems f items (level + 1))).append (level_newline f level)
    exact h.enclosed (.inr rfl) (.inr rfl)
  | .obj [], _ => level_nil.enclosed (.inl rfl) (.inl rfl)
  | .obj ((k, v) :: fields), level => by
    have h := (((((level_newline f (level + 1)).append (level_printString f k)).append (level_colon f)).append
      (level_print f v (level + 1))).append (level_printFields f fields (level + 1))).append (level_newline f level)
    exact h.enclosed (.inl rfl) (.inl rfl)
theorem level_printItems (f : Format) : ∀ (items : List Value) (level : Nat), Level (printItems f level items)
  | [], _ => level_nil
  | v :: items, level => by
    have h := (((level_comma f).append (level_newline f level)).append (level_print f v level)).append (level_printItems f items level)
    rwa [printItems]
theorem level_printFields (f : Format) : ∀ (fields : List (String × Value)) (level : Nat), Level (printFields f level fields)
  | [], _ => level_nil
  | (k, v) :: fields, level => by
    have h := (((((level_comma f).append (level_newline f level)).append (level_printString f k)).append (level_colon f)).append
      (level_print f v level)).append (level_printFields f fields level)
    rwa [printFields]
end

theorem dumps_obj (f : Format) (fields : List (String × Value)) : ∃ body, dumps f (.obj fields) = '{' :: body ++ ['}'] ∧ Level body := by
  cases fields with
  | nil => exact ⟨[], rfl, level_nil⟩
  | cons e fields =>
    obtain ⟨k, v⟩ := e
    exact ⟨_, rfl, (((((level_newline f 1).append (level_printString f k)).append (level_colon f)).append
      (level_print f v 1)).append (level_printFields f fields 1)).append (level_newline f 0)⟩

theorem loads_of_prefix (f : Format) (fields : List (String × Value)) (h : dumps f (.obj fields) = p ++ q) (hq : q ≠ [])
    : loads p = none := by
  obtain ⟨body, hbody, hlevel⟩ := dumps_obj f fields
  by_cases hp : p = []
  · rw [hp]
    rfl
  rw [hbody] at h
  have hdepth := hlevel.open_prefix (.inl rfl) h hp hq 0
  cases hl : loads p with
  | none => rfl
  | some v =>
    rw [neutral_of_loads hl 0] at hdepth
    simp at hdepth

end JsonText

end Lib
