import AgentsRemember.Lib.JsonTextLex

/-!
# Line breaks in a JSON text on one line

A text written without indentation breaks only inside its strings. A piece that
starts after such a break closes the string it started in before it opens one,
so an object that reads out of it has a first key that begins with a mark of the
grammar (`key_after_break`).
-/

namespace Lib

namespace JsonText

open Lines (isLineBreak)

def isMark (c : Char) : Bool := c = ',' || c = ':' || c = ']' || c = '}'

def Follows (cs : List Char) : Prop := ∀ c ∈ cs.head?, isMark c = true

def Legal : Mode → List Char → Prop
  | _, [] => True
  | .outside, c :: cs => isLineBreak c = false ∧ if c = doubleQuote then Legal .inside cs else Legal .outside cs
  | .inside, c :: cs =>
    if c = doubleQuote then Follows cs ∧ Legal .outside cs
    else if c = backslash then Legal .escaped cs
    else Legal .inside cs
  | .escaped, c :: cs => isLineBreak c = false ∧ Legal .inside cs

variable {p q rest cs : List Char} {c x : Char} {f : Format} {n : Nat} {s k : String} {ts : List String} {v : Value}
  {fields : List (String × Value)}

attribute [local simp] Legal

theorem Legal.drop : ∀ {s : Lex}, Legal s.mode (p ++ q) → Legal (s.scan p).mode q := by
  induction p with
  | nil => exact fun h => h
  | cons c p ih =>
    rintro ⟨mode, d⟩ h
    rw [Lex.scan_cons]
    apply ih
    rw [List.cons_append] at h
    cases mode with
    | outside =>
      simp only [Legal] at h
      obtain ⟨-, h⟩ := h
      by_cases hq : c = doubleQuote
      · simpa [Lex.step, hq] using h
      rw [if_neg hq] at h
      by_cases ho : c = '{' ∨ c = '['
      · simpa [Lex.step, hq, ho] using h
      by_cases hc : c = '}' ∨ c = ']'
      · simpa [Lex.step, hq, ho, hc] using h
      · simpa [Lex.step, hq, ho, hc] using h
    | inside =>
      simp only [Legal] at h
      by_cases hq : c = doubleQuote
      · rw [if_pos hq] at h
        simpa [Lex.step, hq] using h.2
      rw [if_neg hq] at h
      by_cases hb : c = backslash
      · rw [if_pos hb] at h
        rw [hb, step_backslash]
        exact h
      rw [if_neg hb] at h
      rw [step_plain hq hb]
      exact h
    | escaped =>
      simp only [Legal] at h
      exact h.2

theorem Legal.after_break {s : Lex} (hc : isLineBreak c = true) (h : Legal s.mode (p ++ c :: q)) : Legal .inside q := by
  have hdrop := Legal.drop h
  cases hm : (s.scan p).mode with
  | outside =>
    rw [hm, Legal] at hdrop
    exact absurd hc (by simp [hdrop.1])
  | inside =>
    have hq : c ≠ doubleQuote := by
      rintro rfl
      exact absurd hc (by decide)
    have hb : c ≠ backslash := by
      rintro rfl
      exact absurd hc (by decide)
    rw [hm, Legal, if_neg hq, if_neg hb] at hdrop
    exact hdrop
  | escaped =>
    rw [hm, Legal] at hdrop
    exact absurd hc (by simp [hdrop.1])

/-! ## What is written is legal -/

theorem break_escaped (h : 33 ≤ c.toNat ∧ c.toNat < 128) : isLineBreak c = false := by
  simp only [isLineBreak, Bool.or_eq_false_iff, Bool.and_eq_false_iff, decide_eq_false_iff_not]
  omega

theorem break_number (h : isNumberChar c = true) : isLineBreak c = false := by
  have hb : 33 ≤ c.toNat ∧ c.toNat < 128 := by
    simp only [isNumberChar, Bool.or_eq_true, decide_eq_true_eq] at h
    rcases h with ((((h | rfl) | rfl) | rfl) | rfl) | rfl
    · simp only [Char.isDigit, Bool.and_eq_true, decide_eq_true_eq, ge_iff_le] at h
      have h1 : 48 ≤ c.toNat := h.1
      have h2 : c.toNat ≤ 57 := h.2
      omega
    all_goals decide
  exact break_escaped hb

theorem legal_plain (cs : List Char) (h : ∀ c ∈ cs, isLineBreak c = false ∧ c ≠ doubleQuote) (hr : Legal .outside rest) :
    Legal .outside (cs ++ rest) := by
  induction cs with
  | nil => exact hr
  | cons c cs ih =>
    obtain ⟨hb, hq⟩ := h c (by simp)
    rw [List.cons_append, Legal, if_neg hq]
    exact ⟨hb, ih fun c' hc => h c' (List.mem_cons_of_mem _ hc)⟩

theorem legal_inside (h : ∀ c ∈ cs, c ≠ doubleQuote ∧ c ≠ backslash) (hr : Legal .inside rest) :
    Legal .inside (cs ++ rest) := by
  induction cs with
  | nil => exact hr
  | cons c cs ih =>
    obtain ⟨hq, hb⟩ := h c (by simp)
    rw [List.cons_append, Legal, if_neg hq, if_neg hb]
    exact ih fun c' hc => h c' (List.mem_cons_of_mem _ hc)

theorem legal_escape_pair {e : Char} (he : isLineBreak e = false) (hr : Legal .inside rest) :
    Legal .inside (backslash :: e :: rest) := by
  rw [Legal, if_neg (by decide), if_pos rfl]
  exact ⟨he, hr⟩

theorem legal_unicodeEscape (n : Nat) (hr : Legal .inside rest) : Legal .inside (unicodeEscape n ++ rest) :=
  legal_escape_pair (by decide) (legal_inside (fun _ hc => ⟨(hexDigit_plain hc).1, (hexDigit_plain hc).2.1⟩) hr)

theorem legal_escapeChar (ascii : Bool) (c : Char) (hr : Legal .inside rest) :
    Legal .inside (escapeChar ascii c ++ rest) := by
  unfold escapeChar
  cases hl : Dict.lookupIn c shortEscapes with
  | some e =>
    refine legal_escape_pair ?_ hr
    have hm := Dict.mem_of_lookupIn hl
    simp only [shortEscapes, List.mem_cons, Prod.mk.injEq, List.not_mem_nil, or_false] at hm
    rcases hm with ⟨-, rfl⟩ | ⟨-, rfl⟩ | ⟨-, rfl⟩ | ⟨-, rfl⟩ | ⟨-, rfl⟩ | ⟨-, rfl⟩ | ⟨-, rfl⟩ <;> rfl
  | none =>
    simp only
    split
    · split
      · exact legal_unicodeEscape _ hr
      · rw [List.append_assoc]
        exact legal_unicodeEscape _ (legal_unicodeEscape _ hr)
    · exact legal_inside (by simpa using plain_of_not_short (Dict.lookupIn_eq_none.mp hl)) hr

theorem legal_printString (f : Format) (s : String) (hf : Follows rest) (hr : Legal .outside rest) :
    Legal .outside (printString f s ++ rest) := by
  have hinside : ∀ cs : List Char, Legal .inside (escape f.ascii cs ++ doubleQuote :: rest) := by
    intro cs
    induction cs with
    | nil =>
      rw [escape, List.flatMap_nil, List.nil_append, Legal, if_pos rfl]
      exact ⟨hf, hr⟩
    | cons c cs ih =>
      rw [escape, List.flatMap_cons, List.append_assoc]
      exact legal_escapeChar f.ascii c ih
  simp only [printString, List.cons_append, List.append_assoc, List.nil_append]
  rw [Legal, if_pos rfl]
  exact ⟨by decide, hinside s.toList⟩

theorem legal_spaces (n : Nat) (hr : Legal .outside rest) : Legal .outside (List.replicate n ' ' ++ rest) :=
  legal_plain _ (fun c hc => by rw [(List.mem_replicate.mp hc).2]; decide) hr

theorem legal_char (h : isLineBreak c = false ∧ c ≠ doubleQuote) (hr : Legal .outside rest) :
    Legal .outside (c :: rest) := legal_plain [c] (by simpa using h) hr

theorem newline_of_none (h : f.indent = none) (level : Nat) : newline f level = [] := by
  rw [newline, h]

theorem legal_printScalar (f : Format) (s : Scalar) (hf : Follows rest) (hr : Legal .outside rest) :
    Legal .outside (printScalar f s ++ rest) := by
  cases s with
  | null => exact legal_plain ['n', 'u', 'l', 'l'] (by decide) hr
  | bool b =>
    cases b with
    | true => exact legal_plain ['t', 'r', 'u', 'e'] (by decide) hr
    | false => exact legal_plain ['f', 'a', 'l', 's', 'e'] (by decide) hr
  | number n =>
    refine legal_plain _ (fun c hc => ?_) hr
    have hn := (isNumber_chars n.valid).1 c hc
    exact ⟨break_number hn, (inert_number hn).1⟩
  | str s => exact legal_printString f s hf hr

mutual
variable {f : Format}

theorem legal_print (hi : f.indent = none) : ∀ (v : Value) (level : Nat) {rest : List Char}, Follows rest →
    Legal .outside rest → Legal .outside (print f level v ++ rest)
  | .scalar s, _, rest, hf, hr => legal_printScalar f s hf hr
  | .arr [], _, rest, _, hr => legal_plain ['[', ']'] (by decide) hr
  | .arr (v :: items), level, rest, _, hr => by
    obtain ⟨hf', hr'⟩ := legal_printItems hi items (level + 1) (c := ']') rfl
      (legal_char (c := ']') (by decide) hr)
    have h := legal_print hi v (level + 1) hf' hr'
    rw [print, newline_of_none hi, newline_of_none hi]
    simp only [List.append_nil, List.cons_append, List.append_assoc, List.nil_append]
    exact legal_char (by decide) h
  | .obj [], _, rest, _, hr => legal_plain ['{', '}'] (by decide) hr
  | .obj ((k, v) :: fields), level, rest, _, hr => by
    obtain ⟨hf', hr'⟩ := legal_printFields hi fields (level + 1) (c := '}') rfl
      (legal_char (c := '}') (by decide) hr)
    have h := legal_print hi v (level + 1) hf' hr'
    have hcolon : Legal .outside (colon f ++ _) := legal_char (by decide) (legal_spaces f.afterColon h)
    rw [print, newline_of_none hi, newline_of_none hi]
    simp only [List.append_nil, List.cons_append, List.append_assoc, List.nil_append]
    exact legal_char (by decide) (legal_printString f k (by rintro c ⟨⟩; rfl) hcolon)
theorem legal_printItems (hi : f.indent = none) : ∀ (items : List Value) (level : Nat) {c : Char} {rest : List Char},
    isMark c = true → Legal .outside (c :: rest) →
    Follows (printItems f level items ++ c :: rest) ∧ Legal .outside (printItems f level items ++ c :: rest)
  | [], _, c, rest, hc, hr => ⟨by rintro d ⟨⟩; exact hc, hr⟩
  | v :: items, level, c, rest, hc, hr => by
    obtain ⟨hf', hr'⟩ := legal_printItems hi items level hc hr
    have h := legal_spaces f.afterComma (legal_print hi v level hf' hr')
    rw [printItems, newline_of_none hi]
    simp only [comma, List.append_nil, List.cons_append, List.append_assoc]
    exact ⟨by rintro d ⟨⟩; rfl, legal_char (by decide) h⟩
theorem legal_printFields (hi : f.indent = none) : ∀ (fields : List (String × Value)) (level : Nat) {c : Char}
    {rest : List Char}, isMark c = true → Legal .outside (c :: rest) →
    Follows (printFields f level fields ++ c :: rest) ∧ Legal .outside (printFields f level fields ++ c :: rest)
  | [], _, c, rest, hc, hr => ⟨by rintro d ⟨⟩; exact hc, hr⟩
  | (k, v) :: fields, level, c, rest, hc, hr => by
    obtain ⟨hf', hr'⟩ := legal_printFields hi fields level hc hr
    have hcolon : Legal .outside (colon f ++ _) :=
      legal_char (by decide) (legal_spaces f.afterColon (legal_print hi v level hf' hr'))
    have h := legal_spaces f.afterComma (legal_printString f k (by rintro c ⟨⟩; rfl) hcolon)
    rw [printFields, newline_of_none hi]
    simp only [comma, List.append_nil, List.cons_append, List.append_assoc]
    exact ⟨by rintro d ⟨⟩; rfl, legal_char (by decide) h⟩
end

theorem legal_dumps (hi : f.indent = none) (v : Value) : Legal .outside (dumps f v) := by
  have h := @legal_print f hi v 0 [] (by rintro c ⟨⟩) (by simp [Legal])
  rwa [List.append_nil] at h

/-! ## Where the breaks come from -/

mutual
def texts : Value → List String
  | .scalar (.str s) => [s]
  | .scalar _ => []
  | .arr items => textsItems items
  | .obj fields => textsFields fields
  termination_by structural v => v
def textsItems : List Value → List String
  | [] => []
  | v :: items => texts v ++ textsItems items
  termination_by structural items => items
def textsFields : List (String × Value) → List String
  | [] => []
  | (k, v) :: fields => k :: texts v ++ textsFields fields
  termination_by structural fields => fields
end

def isWideBreak (c : Char) : Bool := c.toNat = 133 || c.toNat = 8232 || c.toNat = 8233

theorem break_of_wide (h : isWideBreak c = true) : isLineBreak c = true := by
  simp only [isWideBreak, Bool.or_eq_true, decide_eq_true_eq] at h
  simp only [isLineBreak, Bool.or_eq_true, Bool.and_eq_true, decide_eq_true_eq]
  omega

theorem wide_of_break (h : isLineBreak c = true) (hs : 32 ≤ c.toNat) : isWideBreak c = true := by
  simp only [isLineBreak, Bool.or_eq_true, Bool.and_eq_true, decide_eq_true_eq] at h
  simp only [isWideBreak, Bool.or_eq_true, decide_eq_true_eq]
  omega

theorem break_hexDigits (h : c ∈ hexDigits 4 n) : isLineBreak c = false := by
  obtain ⟨i, -, rfl⟩ := List.mem_map.mp h
  have hd := Nat.mod_lt (n / 16 ^ i) (by decide : 0 < 16)
  generalize n / 16 ^ i % 16 = d at hd
  interval_cases d <;> decide

theorem break_unicodeEscape (h : c ∈ unicodeEscape n) : isLineBreak c = false := by
  rcases List.mem_cons.mp h with rfl | h
  · decide
  rcases List.mem_cons.mp h with rfl | h
  · decide
  · exact break_hexDigits h

/-- A break that the layout `f` leaves in a string. -/
def Carries (f : Format) (x : Char) : Prop := f.ascii = false ∧ isWideBreak x = true

theorem mem_escapeChar_break (hx : isLineBreak x = true) : x ∈ escapeChar f.ascii c ↔ x = c ∧ Carries f x := by
  unfold escapeChar
  cases hl : Dict.lookupIn c shortEscapes with
  | some e =>
    have hm := Dict.mem_of_lookupIn hl
    have hno : isWideBreak c = false ∧ isLineBreak e = false ∧ isLineBreak backslash = false := by
      simp only [shortEscapes, List.mem_cons, Prod.mk.injEq, List.not_mem_nil, or_false] at hm
      rcases hm with ⟨rfl, rfl⟩ | ⟨rfl, rfl⟩ | ⟨rfl, rfl⟩ | ⟨rfl, rfl⟩ | ⟨rfl, rfl⟩ | ⟨rfl, rfl⟩ | ⟨rfl, rfl⟩ <;> decide
    constructor
    · intro h
      simp only [List.mem_cons, List.not_mem_nil, or_false] at h
      rcases h with rfl | rfl
      · rw [hno.2.2] at hx
        cases hx
      · rw [hno.2.1] at hx
        cases hx
    rintro ⟨rfl, -, h⟩
    rw [hno.1] at h
    cases h
  | none =>
    dsimp only
    by_cases hsmall : c.toNat < 32 ∨ (f.ascii = true ∧ 126 < c.toNat)
    · rw [if_pos hsmall]
      refine iff_of_false (fun h => ?_) ?_
      · have hno : isLineBreak x = false := by
          split at h
          · exact break_unicodeEscape h
          rcases List.mem_append.mp h with h | h
          · exact break_unicodeEscape h
          · exact break_unicodeEscape h
        rw [hno] at hx
        cases hx
      rintro ⟨rfl, hascii, h⟩
      simp only [isWideBreak, Bool.or_eq_true, decide_eq_true_eq] at h
      simp only [hascii, Bool.false_eq_true, false_and, or_false] at hsmall
      omega
    · rw [if_neg hsmall, List.mem_singleton]
      constructor
      · rintro rfl
        have hwide := wide_of_break hx (by omega)
        have hbig : 126 < x.toNat := by
          simp only [isWideBreak, Bool.or_eq_true, decide_eq_true_eq] at hwide
          omega
        exact ⟨rfl, by simpa [hbig] using (not_or.mp hsmall).2, hwide⟩
      · exact fun h => h.1

theorem mem_printString_break (hx : isLineBreak x = true) : x ∈ printString f s ↔ x ∈ s.toList ∧ Carries f x := by
  have hq : x ≠ doubleQuote := by
    rintro rfl
    exact absurd hx (by decide)
  rw [printString, List.cons_append, List.mem_cons, List.mem_append, List.mem_singleton]
  simp only [hq, false_or, or_false, escape, List.mem_flatMap]
  constructor
  · rintro ⟨c, hc, hm⟩
    obtain ⟨rfl, hw⟩ := (mem_escapeChar_break hx).mp hm
    exact ⟨hc, hw⟩
  · rintro ⟨hm, hw⟩
    exact ⟨x, hm, (mem_escapeChar_break hx).mpr ⟨rfl, hw⟩⟩

def InTexts (x : Char) (ts : List String) : Prop := ∃ t ∈ ts, x ∈ t.toList

theorem inTexts_append {us : List String} : InTexts x (ts ++ us) ↔ InTexts x ts ∨ InTexts x us := by
  simp only [InTexts, List.mem_append, or_and_right, exists_or]

theorem inTexts_cons {t : String} : InTexts x (t :: ts) ↔ x ∈ t.toList ∨ InTexts x ts := by
  simp [InTexts]

theorem not_mem_comma (hx : isLineBreak x = true) : x ∉ comma f := by
  intro h
  rcases List.mem_cons.mp h with rfl | h
  · cases hx
  · rw [(List.mem_replicate.mp h).2] at hx
    cases hx

theorem not_mem_colon (hx : isLineBreak x = true) : x ∉ colon f := by
  intro h
  rcases List.mem_cons.mp h with rfl | h
  · cases hx
  · rw [(List.mem_replicate.mp h).2] at hx
    cases hx

theorem not_bracket (hx : isLineBreak x = true) : x ≠ '[' ∧ x ≠ ']' ∧ x ≠ '{' ∧ x ≠ '}' := by
  refine ⟨?_, ?_, ?_, ?_⟩ <;> rintro rfl <;> cases hx

section
variable {f : Format} (hi : f.indent = none) {x : Char} (hx : isLineBreak x = true)
include hx

theorem mem_printScalar_break (s : Scalar) :
    x ∈ printScalar f s ↔ InTexts x (texts (.scalar s)) ∧ Carries f x := by
  cases s with
  | str s => simpa [texts, InTexts, printScalar] using mem_printString_break hx
  | null =>
    refine iff_of_false (fun h => ?_) (by simp [texts, InTexts])
    have : ∀ c ∈ ['n', 'u', 'l', 'l'], isLineBreak c = false := by decide
    rw [this x h] at hx
    cases hx
  | bool b =>
    refine iff_of_false (fun h => ?_) (by simp [texts, InTexts])
    have : ∀ c ∈ printScalar f (.bool b), isLineBreak c = false := by
      cases b
      · show ∀ c ∈ ['f', 'a', 'l', 's', 'e'], isLineBreak c = false
        decide
      · show ∀ c ∈ ['t', 'r', 'u', 'e'], isLineBreak c = false
        decide
    rw [this x h] at hx
    cases hx
  | number n =>
    refine iff_of_false (fun h => ?_) (by simp [texts, InTexts])
    rw [break_number ((isNumber_chars n.valid).1 x h)] at hx
    cases hx

include hi

mutual
theorem mem_print_break : ∀ (v : Value) (level : Nat), x ∈ print f level v ↔ InTexts x (texts v) ∧ Carries f x
  | .scalar s, _ => mem_printScalar_break hx s
  | .arr [], _ => by
    obtain ⟨h1, h2, -, -⟩ := not_bracket hx
    simp [print, texts, textsItems, InTexts, h1, h2]
  | .arr (v :: items), level => by
    obtain ⟨h1, h2, -, -⟩ := not_bracket hx
    have hv := mem_print_break v (level + 1)
    have hitems := mem_printItems_break items (level + 1)
    simp only [print, newline_of_none hi, List.append_nil, List.cons_append, List.mem_cons, List.mem_append, List.not_mem_nil,
      List.nil_append, h1, h2, false_or, or_false, hv, hitems, texts, textsItems, inTexts_append]
    rw [or_and_right]
  | .obj [], _ => by
    obtain ⟨-, -, h1, h2⟩ := not_bracket hx
    simp [print, texts, textsFields, InTexts, h1, h2]
  | .obj ((k, v) :: fields), level => by
    obtain ⟨-, -, h1, h2⟩ := not_bracket hx
    have hv := mem_print_break v (level + 1)
    have hfields := mem_printFields_break fields (level + 1)
    simp only [print, newline_of_none hi, List.append_nil, List.cons_append, List.mem_cons, List.mem_append, List.not_mem_nil,
      List.nil_append, h1, h2, false_or, or_false, mem_printString_break hx, not_mem_colon hx, hv, hfields, texts, textsFields,
      inTexts_cons, inTexts_append, or_and_right, or_assoc]
theorem mem_printItems_break : ∀ (items : List Value) (level : Nat),
    x ∈ printItems f level items ↔ InTexts x (textsItems items) ∧ Carries f x
  | [], _ => by simp [printItems, textsItems, InTexts]
  | v :: items, level => by
    have hv := mem_print_break v level
    have hitems := mem_printItems_break items level
    simp only [printItems, newline_of_none hi, List.append_nil, List.mem_append, not_mem_comma hx, false_or, hv, hitems,
      textsItems, inTexts_append, or_and_right]
theorem mem_printFields_break : ∀ (fields : List (String × Value)) (level : Nat),
    x ∈ printFields f level fields ↔ InTexts x (textsFields fields) ∧ Carries f x
  | [], _ => by simp [printFields, textsFields, InTexts]
  | (k, v) :: fields, level => by
    have hv := mem_print_break v level
    have hfields := mem_printFields_break fields level
    simp only [printFields, newline_of_none hi, List.append_nil, List.cons_append, List.mem_append, not_mem_comma hx, false_or,
      mem_printString_break hx, not_mem_colon hx, or_false, hv, hfields, textsFields, inTexts_cons, inTexts_append, or_and_right,
      or_assoc]
end

theorem mem_dumps_break (v : Value) : x ∈ dumps f v ↔ InTexts x (texts v) ∧ Carries f x := mem_print_break hi hx v 0

end

/-! ## An object that starts inside a string -/

theorem skipSpace_split (cs : List Char) : ∃ ws, cs = ws ++ skipSpace cs ∧ ∀ c ∈ ws, isSpace c = true :=
  ⟨cs.takeWhile isSpace, (List.takeWhile_append_dropWhile).symm, List.all_eq_true.mp List.all_takeWhile⟩

theorem plain_space (h : isSpace c = true) : c ≠ doubleQuote ∧ c ≠ backslash := by
  constructor <;> rintro rfl <;> exact absurd h (by decide)

theorem parseFields_head (h : parseFields n cs = some ((k, v) :: fields, rest)) :
    ∃ end', parseKey cs = some (k, end') := by
  cases n with
  | zero => simp [parseFields] at h
  | succ n =>
    rw [parseFields] at h
    cases hk : parseKey cs with
    | none => simp [hk] at h
    | some r =>
      obtain ⟨k', rest₁⟩ := r
      simp only [hk] at h
      cases hv : parseValue n rest₁ with
      | none => simp [hv] at h
      | some r =>
        obtain ⟨w, rest₂⟩ := r
        simp only [hv] at h
        cases hsp : skipSpace rest₂ with
        | nil => simp [hsp] at h
        | cons d rest₃ =>
          simp only [hsp] at h
          split at h
          · obtain ⟨r, -, he⟩ := Option.map_eq_some_iff.mp h
            cases he
            exact ⟨rest₁, rfl⟩
          split at h
          · cases h
            exact ⟨rest₁, rfl⟩
          · cases h

theorem parseKey_start (h : parseKey cs = some (k, rest)) :
    ∃ ws after end', cs = ws ++ doubleQuote :: after ∧ (∀ c ∈ ws, isSpace c = true) ∧ parseString after = some (k, end') := by
  obtain ⟨ws, hcs, hws⟩ := skipSpace_split cs
  rw [parseKey] at h
  cases hq : skipSpace cs with
  | nil => simp [hq] at h
  | cons q after =>
    rw [hq] at hcs
    simp only [hq] at h
    split at h
    · rename_i hquote
      cases hs : parseString after with
      | none => simp [hs] at h
      | some r =>
        obtain ⟨k', end'⟩ := r
        simp only [hs] at h
        split at h
        · obtain ⟨rfl, -⟩ := Prod.mk.inj (Option.some.inj h)
          rw [hquote] at hcs
          exact ⟨ws, after, end', hcs, hws, hs⟩
        · cases h
    · cases h

theorem first_key (h : parseValue n cs = some (.obj ((k, v) :: fields), rest)) :
    ∃ ws ws' after end', cs = ws ++ '{' :: (ws' ++ doubleQuote :: after) ∧ (∀ c ∈ ws, isSpace c = true) ∧
      (∀ c ∈ ws', isSpace c = true) ∧ parseString after = some (k, end') := by
  obtain ⟨ws, hcs, hws⟩ := skipSpace_split cs
  cases n with
  | zero => simp [parseValue] at h
  | succ n =>
    rw [parseValue] at h
    cases hc : skipSpace cs with
    | nil => simp [hc] at h
    | cons c cs' =>
      rw [hc] at hcs
      simp only [hc] at h
      split at h
      · obtain ⟨r, -, he⟩ := Option.map_eq_some_iff.mp h
        cases he
      split at h
      · split at h
        · cases h
        · obtain ⟨r, -, he⟩ := Option.map_eq_some_iff.mp h
          cases he
      split at h
      · rename_i hopen
        split at h
        · cases h
        obtain ⟨r, hr, he⟩ := Option.map_eq_some_iff.mp h
        obtain ⟨he, -⟩ := Prod.mk.inj he
        obtain ⟨fields', rest'⟩ := r
        cases he
        obtain ⟨end', hk⟩ := parseFields_head hr
        obtain ⟨ws', after, end', hcs', hws', hs⟩ := parseKey_start hk
        exact ⟨ws, ws', after, end', by rw [hcs, hopen, hcs'], hws, hws', hs⟩
      · obtain ⟨r, -, he⟩ := Option.map_eq_some_iff.mp h
        cases he

theorem parseString_mark {m : Char} (hm : isMark m = true) (h : parseString (m :: cs) = some (s, rest)) :
    s.toList.head? = some m := by
  have hplain : m ≠ doubleQuote ∧ m ≠ backslash ∧ 32 ≤ m.toNat := by
    simp only [isMark, Bool.or_eq_true, decide_eq_true_eq] at hm
    rcases hm with ((rfl | rfl) | rfl) | rfl <;> decide
  rw [parseString, scanString_plain hplain.1 hplain.2.1 hplain.2.2] at h
  cases hs : scanString cs with
  | none => simp [hs] at h
  | some r =>
    simp only [hs, Option.map_some] at h
    obtain ⟨t, ht, he⟩ := Option.map_eq_some_iff.mp h
    obtain ⟨he, -⟩ := Prod.mk.inj he
    rw [unescape, List.length_cons, unescapeFuel, if_neg hplain.2.1] at ht
    obtain ⟨t', -, rfl⟩ := Option.map_eq_some_iff.mp ht
    rw [← he, String.toList_ofList]
    rfl

theorem key_after_break {piece tail : List Char} (hl : Legal .inside (piece ++ tail))
    (h : loads piece = some (.obj ((k, v) :: fields))) : ∃ c ∈ k.toList.head?, isMark c = true := by
  rw [loads] at h
  cases hv : parseValue (piece.length + 1) piece with
  | none => simp [hv] at h
  | some r =>
    obtain ⟨w, rest⟩ := r
    simp only [hv] at h
    split at h
    · cases h
      obtain ⟨ws, ws', after, end', hpiece, hws, hws', hkey⟩ := first_key hv
      have hopen : ∀ c ∈ ws ++ '{' :: ws', c ≠ doubleQuote ∧ c ≠ backslash := by
        intro c hc
        rcases List.mem_append.mp hc with hc | hc
        · exact plain_space (hws c hc)
        rcases List.mem_cons.mp hc with rfl | hc
        · decide
        · exact plain_space (hws' c hc)
      have hquote : Legal .inside (doubleQuote :: (after ++ tail)) := by
        have hscan : (Lex.mk .inside 0).scan (ws ++ '{' :: ws') = ⟨.inside, 0⟩ := by
          generalize ws ++ '{' :: ws' = cs at hopen
          induction cs with
          | nil => rfl
          | cons c cs ih =>
            obtain ⟨hq, hb⟩ := hopen c (by simp)
            rw [Lex.scan_cons, step_plain hq hb, ih fun c' hc => hopen c' (List.mem_cons_of_mem _ hc)]
        have hdrop := Legal.drop (s := ⟨.inside, 0⟩) (p := ws ++ '{' :: ws') (q := doubleQuote :: (after ++ tail)) (by
          rw [hpiece] at hl
          simpa using hl)
        rwa [hscan] at hdrop
      rw [Legal, if_pos rfl] at hquote
      obtain ⟨hfollows, -⟩ := hquote
      cases after with
      | nil => simp [parseString, scanString] at hkey
      | cons m after =>
        have hm : isMark m = true := hfollows m rfl
        exact ⟨m, parseString_mark hm hkey, hm⟩
    · cases h

end JsonText

end Lib
