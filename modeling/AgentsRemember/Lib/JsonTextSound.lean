import AgentsRemember.Lib.JsonText
import Mathlib.Tactic.IntervalCases

/-!
# JSON text reads back

`loads_dumps`: reading what was written gives the value again, in every format.
-/

namespace Lib

namespace JsonText

/-! ## Escapes -/

theorem hexValue_digitChar {d : Nat} (h : d < 16) : hexValue (Nat.digitChar d) = some d := by
  interval_cases d <;> decide

theorem hexDigits_four (n : Nat) : hexDigits 4 n =
    [Nat.digitChar (n / 4096 % 16), Nat.digitChar (n / 256 % 16), Nat.digitChar (n / 16 % 16), Nat.digitChar (n % 16)] := by
  simp [hexDigits, List.range_succ]

variable {n : Nat} {c : Char} {ds ws cs rest : List Char}

theorem hexValues_hexDigits (h : n < 65536) : hexValues (hexDigits 4 n) = some n := by
  have h3 := hexValue_digitChar (Nat.mod_lt (n / 4096) (by decide : 0 < 16))
  have h2 := hexValue_digitChar (Nat.mod_lt (n / 256) (by decide : 0 < 16))
  have h1 := hexValue_digitChar (Nat.mod_lt (n / 16) (by decide : 0 < 16))
  have h0 := hexValue_digitChar (Nat.mod_lt n (by decide : 0 < 16))
  rw [hexDigits_four]
  simp only [hexValues, List.foldl_cons, List.foldl_nil, Option.bind_some, h3, h2, h1, h0, Option.map_some,
    Option.some.injEq]
  omega

theorem length_hexDigits (n : Nat) : (hexDigits 4 n).length = 4 := by simp [hexDigits]

theorem hexDigit_plain (h : c ∈ hexDigits 4 n) : c ≠ doubleQuote ∧ c ≠ backslash ∧ 32 ≤ c.toNat := by
  obtain ⟨i, -, rfl⟩ := List.mem_map.mp h
  have hd := Nat.mod_lt (n / 16 ^ i) (by decide : 0 < 16)
  generalize n / 16 ^ i % 16 = d at hd
  interval_cases d <;> decide

theorem char_lt (c : Char) : c.toNat < 1114112 ∧ ¬ (55296 ≤ c.toNat ∧ c.toNat < 57344) := by
  have h := c.valid
  simp only [UInt32.isValidChar, Nat.isValidChar] at h
  have : c.toNat = c.val.toNat := rfl
  omega

theorem unescapeChar_unicode (h : n < 65536) (hs : isSurrogate n = false) (cs : List Char) :
    unescapeChar ('u' :: hexDigits 4 n ++ cs) = some (Char.ofNat n, cs) := by
  have htake : (hexDigits 4 n ++ cs).take 4 = hexDigits 4 n := List.take_left' (length_hexDigits n)
  have hdrop : (hexDigits 4 n ++ cs).drop 4 = cs := List.drop_left' (length_hexDigits n)
  rw [List.cons_append, unescapeChar, if_pos rfl, htake, hdrop, hexValues_hexDigits h]
  simp [hs, length_hexDigits]

theorem unescapeChar_pair (h : 65536 ≤ n) (h' : n < 1114112) (cs : List Char) :
    unescapeChar ('u' :: hexDigits 4 (55296 + (n - 65536) / 1024) ++
      (unicodeEscape (56320 + (n - 65536) % 1024) ++ cs)) = some (Char.ofNat n, cs) := by
  generalize hhi : 55296 + (n - 65536) / 1024 = hi
  generalize hlo : 56320 + (n - 65536) % 1024 = lo
  have htake : (hexDigits 4 hi ++ (unicodeEscape lo ++ cs)).take 4 = hexDigits 4 hi := List.take_left' (length_hexDigits hi)
  have hdrop : (hexDigits 4 hi ++ (unicodeEscape lo ++ cs)).drop 4 = unicodeEscape lo ++ cs :=
    List.drop_left' (length_hexDigits hi)
  have hdrop6 : (hexDigits 4 hi ++ (unicodeEscape lo ++ cs)).drop 6 = hexDigits 4 lo ++ cs := by
    rw [show 6 = 4 + 2 from rfl, ← List.drop_drop, hdrop]
    rfl
  have hdrop10 : (hexDigits 4 hi ++ (unicodeEscape lo ++ cs)).drop 10 = cs := by
    rw [show 10 = 6 + 4 from rfl, ← List.drop_drop, hdrop6]
    exact List.drop_left' (length_hexDigits lo)
  have htake4 : (hexDigits 4 lo ++ cs).take 4 = hexDigits 4 lo := List.take_left' (length_hexDigits lo)
  have hpair : (unicodeEscape lo ++ cs).take 2 = [backslash, 'u'] := rfl
  have hsurr : isSurrogate hi = true := by
    simp only [isSurrogate, Bool.and_eq_true, decide_eq_true_eq]
    omega
  have hn : 65536 + (hi - 55296) * 1024 + (lo - 56320) = n := by omega
  rw [List.cons_append, unescapeChar, if_pos rfl, htake, hdrop, hdrop6, hdrop10, hexValues_hexDigits (n := hi) (by omega), hpair]
  simp only [length_hexDigits, hsurr, ne_eq, not_true_eq_false, if_false, reduceCtorEq, or_false, htake4,
    hexValues_hexDigits (n := lo) (by omega), hn]
  have hlow : ¬ (False ∨ lo < 56320 ∨ 57344 ≤ lo) := by rw [false_or]; omega
  rw [if_neg (by omega), if_neg hlow]

theorem plain_of_not_short (h : c ∉ shortEscapes.map Prod.fst) : c ≠ doubleQuote ∧ c ≠ backslash := by
  constructor
  · rintro rfl
    exact h (by simp [shortEscapes])
  · rintro rfl
    exact h (by simp [shortEscapes])

theorem escapeChar_cases (ascii : Bool) (c : Char) :
    (escapeChar ascii c = [c] ∧ c ≠ doubleQuote ∧ c ≠ backslash ∧ 32 ≤ c.toNat) ∨
    ∃ e, escapeChar ascii c = backslash :: e ∧ ∀ cs, unescapeChar (e ++ cs) = some (c, cs) := by
  obtain ⟨hlt, hsurr⟩ := char_lt c
  unfold escapeChar
  cases hl : Dict.lookupIn c shortEscapes with
  | some e =>
    refine .inr ⟨[e], rfl, fun cs => ?_⟩
    have hm := Dict.mem_of_lookupIn hl
    simp only [shortEscapes, List.mem_cons, Prod.mk.injEq, List.not_mem_nil, or_false] at hm
    rcases hm with ⟨rfl, rfl⟩ | ⟨rfl, rfl⟩ | ⟨rfl, rfl⟩ | ⟨rfl, rfl⟩ | ⟨rfl, rfl⟩ | ⟨rfl, rfl⟩ | ⟨rfl, rfl⟩ <;> rfl
  | none =>
    have hnot := Dict.lookupIn_eq_none.mp hl
    simp only
    split
    · split
      · rename_i hsmall
        refine .inr ⟨'u' :: hexDigits 4 c.toNat, rfl, fun cs => ?_⟩
        rw [unescapeChar_unicode hsmall (by simpa [isSurrogate] using hsurr), Char.ofNat_toNat]
      rename_i hbig
      refine .inr ⟨_, rfl, fun cs => ?_⟩
      show unescapeChar (('u' :: hexDigits 4 _ ++ unicodeEscape _) ++ cs) = _
      rw [List.append_assoc, unescapeChar_pair (by omega) hlt, Char.ofNat_toNat]
    rename_i hplain
    obtain ⟨hq, hb⟩ := plain_of_not_short hnot
    exact .inl ⟨rfl, hq, hb, by omega⟩

theorem unescapeFuel_escape (ascii : Bool) : ∀ (cs : List Char) (n : Nat), (escape ascii cs).length ≤ n →
    unescapeFuel n (escape ascii cs) = some cs
  | [], n, _ => by cases n <;> rfl
  | c :: cs, n, h => by
    rw [escape, List.flatMap_cons, List.length_append] at h
    rw [escape, List.flatMap_cons]
    rcases escapeChar_cases ascii c with ⟨he, -, hb, -⟩ | ⟨e, he, hu⟩
    · rw [he] at h ⊢
      obtain ⟨m, rfl⟩ : ∃ m, n = m + 1 := ⟨n - 1, by simp at h; omega⟩
      have ih := unescapeFuel_escape ascii cs m (by simp only [List.length_singleton] at h; rw [escape]; omega)
      rw [escape] at ih
      simp only [List.singleton_append, unescapeFuel, if_neg hb, ih, Option.map_some]
    rw [he] at h ⊢
    obtain ⟨m, rfl⟩ : ∃ m, n = m + 1 := ⟨n - 1, by simp at h; omega⟩
    have ih := unescapeFuel_escape ascii cs m (by simp only [List.length_cons] at h; rw [escape]; omega)
    rw [escape] at ih
    simp only [List.cons_append, unescapeFuel, if_true, hu, ih, Option.map_some]

theorem unescape_escape (ascii : Bool) (cs : List Char) : unescape (escape ascii cs) = some cs :=
  unescapeFuel_escape ascii cs _ (Nat.le_refl _)

/-! ## The end of a string -/

theorem scanString_quote (cs : List Char) : scanString (doubleQuote :: cs) = some ([], cs) := by
  cases cs <;> simp [scanString]

theorem scanString_backslash (d : Char) (cs : List Char) :
    scanString (backslash :: d :: cs) = (scanString cs).map fun r => (backslash :: d :: r.1, r.2) := by
  rw [scanString, if_neg (by decide), if_pos rfl]

theorem scanString_plain (hq : c ≠ doubleQuote) (hb : c ≠ backslash) (h : 32 ≤ c.toNat) (cs : List Char) :
    scanString (c :: cs) = (scanString cs).map fun r => (c :: r.1, r.2) := by
  cases cs with
  | nil => simp [scanString, hq]
  | cons d cs => rw [scanString, if_neg hq, if_neg hb, if_neg (by omega)]

theorem scanString_plain_append (h : ∀ c ∈ ds, c ≠ doubleQuote ∧ c ≠ backslash ∧ 32 ≤ c.toNat) (cs : List Char) :
    scanString (ds ++ cs) = (scanString cs).map fun r => (ds ++ r.1, r.2) := by
  induction ds with
  | nil => simp
  | cons d ds ih =>
    obtain ⟨hq, hb, hs⟩ := h d (by simp)
    rw [List.cons_append, scanString_plain hq hb hs, ih fun c hc => h c (List.mem_cons_of_mem _ hc), Option.map_map]
    rfl

theorem scanString_unicodeEscape (n : Nat) (cs : List Char) :
    scanString (unicodeEscape n ++ cs) = (scanString cs).map fun r => (unicodeEscape n ++ r.1, r.2) := by
  rw [unicodeEscape, List.cons_append, List.cons_append, scanString_backslash,
    scanString_plain_append fun c hc => hexDigit_plain hc, Option.map_map]
  rfl

theorem scanString_escapeChar (ascii : Bool) (c : Char) (cs : List Char) :
    scanString (escapeChar ascii c ++ cs) = (scanString cs).map fun r => (escapeChar ascii c ++ r.1, r.2) := by
  unfold escapeChar
  cases hl : Dict.lookupIn c shortEscapes with
  | some e => exact scanString_backslash e cs
  | none =>
    have hnot := Dict.lookupIn_eq_none.mp hl
    simp only
    split
    · split
      · exact scanString_unicodeEscape _ cs
      · rw [List.append_assoc, scanString_unicodeEscape, scanString_unicodeEscape, Option.map_map]
        simp [Function.comp_def]
    · obtain ⟨hq, hb⟩ := plain_of_not_short hnot
      exact scanString_plain hq hb (by omega) cs

theorem scanString_escape (ascii : Bool) (s rest : List Char) :
    scanString (escape ascii s ++ doubleQuote :: rest) = some (escape ascii s, rest) := by
  induction s with
  | nil => exact scanString_quote rest
  | cons c s ih =>
    rw [escape, List.flatMap_cons, List.append_assoc, scanString_escapeChar]
    rw [escape] at ih
    rw [ih]
    rfl

theorem parseString_printString (f : Format) (s : String) (rest : List Char) :
    parseString ((printString f s).tail ++ rest) = some (s, rest) := by
  have hscan := scanString_escape f.ascii s.toList rest
  rw [printString, List.cons_append, List.tail_cons, List.append_assoc, List.singleton_append, parseString, hscan]
  simp [unescape_escape, String.ofList_toList]

/-! ## White space, literals and numbers -/

theorem skipSpace_cons (h : isSpace c = false) (cs : List Char) : skipSpace (c :: cs) = c :: cs := by
  simp [skipSpace, h]

theorem skipSpace_append (h : ∀ c ∈ ws, isSpace c = true) (cs : List Char) : skipSpace (ws ++ cs) = skipSpace cs :=
  List.dropWhile_append_of_pos h

theorem space_newline (f : Format) (level : Nat) : ∀ c ∈ newline f level, isSpace c = true := by
  intro c hc
  unfold newline at hc
  cases hi : f.indent with
  | none => simp [hi] at hc
  | some n =>
    simp only [hi, List.mem_cons, List.mem_replicate] at hc
    rcases hc with rfl | ⟨-, rfl⟩ <;> rfl

theorem space_replicate (n : Nat) : ∀ c ∈ List.replicate n ' ', isSpace c = true := by
  intro c hc
  rw [(List.mem_replicate.mp hc).2]
  rfl

def Stops (cs : List Char) : Prop := ∀ c ∈ cs.head?, isNumberChar c = false

theorem isDigits_mem (h : isDigits cs = true) : ∀ c ∈ cs, c.isDigit = true := by
  rw [isDigits, Bool.and_eq_true] at h
  exact List.all_eq_true.mp h.2

theorem isInteger_head (h : isInteger cs = true) : cs ≠ [] ∧ ∀ c ∈ cs, c.isDigit = true := by
  rw [isInteger, Bool.or_eq_true, decide_eq_true_eq, Bool.and_eq_true] at h
  rcases h with rfl | ⟨h, -⟩
  · exact ⟨by simp, by simp⟩
  refine ⟨?_, isDigits_mem h⟩
  rw [isDigits, Bool.and_eq_true, decide_eq_true_eq] at h
  exact h.1

theorem isExponent_mem (h : isExponent cs = true) : ∀ c ∈ cs, isNumberChar c = true := by
  intro c hc
  unfold isExponent at h
  split at h
  · rcases List.mem_cons.mp hc with rfl | hc
    · rfl
    · simp [isNumberChar, isDigits_mem h c hc]
  · rcases List.mem_cons.mp hc with rfl | hc
    · rfl
    · simp [isNumberChar, isDigits_mem h c hc]
  · simp [isNumberChar, isDigits_mem h c hc]

theorem head_of_dropWhile {p : Char → Bool} {d : Char} (h : cs.dropWhile p = d :: ds) : p d = false := by
  have hne : cs.dropWhile p ≠ [] := by
    rw [h]
    exact List.cons_ne_nil d ds
  have hd := List.head_dropWhile_not p hne
  simpa only [h, List.head_cons] using hd

theorem isUnsigned_chars (h : isUnsigned cs = true) :
    (∀ c ∈ cs, isNumberChar c = true) ∧ ∃ c t, cs = c :: t ∧ c.isDigit = true := by
  simp only [isUnsigned, Bool.and_eq_true] at h
  obtain ⟨⟨hi, hf⟩, he⟩ := h
  generalize hm : (cs.takeWhile fun c => c ≠ 'e' && c ≠ 'E') = mantissa at hi hf
  generalize hx : (cs.dropWhile fun c => c ≠ 'e' && c ≠ 'E') = exponent at he
  generalize hw : mantissa.takeWhile (· ≠ '.') = whole at hi
  generalize hr : mantissa.dropWhile (· ≠ '.') = fraction at hf
  have hcs : cs = (whole ++ fraction) ++ exponent := by
    rw [← hw, ← hr, List.takeWhile_append_dropWhile, ← hm, ← hx, List.takeWhile_append_dropWhile]
  obtain ⟨hne, hdigits⟩ := isInteger_head hi
  have hfraction : ∀ c ∈ fraction, isNumberChar c = true := by
    cases fraction with
    | nil => simp
    | cons d ds =>
      have hdot : d = '.' := by simpa using head_of_dropWhile hr
      intro c hc
      rcases List.mem_cons.mp hc with rfl | hc
      · rw [hdot]
        rfl
      · simp [isNumberChar, isDigits_mem hf c hc]
  have hexponent : ∀ c ∈ exponent, isNumberChar c = true := by
    cases exponent with
    | nil => simp
    | cons d ds =>
      have hmark : d = 'e' ∨ d = 'E' := by
        have hd := head_of_dropWhile hx
        simp only [ne_eq, decide_not, Bool.and_eq_false_iff, Bool.not_eq_false', decide_eq_true_eq] at hd
        exact hd
      intro c hc
      rcases List.mem_cons.mp hc with rfl | hc
      · rcases hmark with rfl | rfl <;> rfl
      · exact isExponent_mem he c hc
  constructor
  · intro c hc
    rw [hcs] at hc
    rcases List.mem_append.mp hc with hc | hc
    · rcases List.mem_append.mp hc with hc | hc
      · simp [isNumberChar, hdigits c hc]
      · exact hfraction c hc
    · exact hexponent c hc
  · obtain ⟨c, t, rfl⟩ := List.exists_cons_of_ne_nil hne
    exact ⟨c, t ++ fraction ++ exponent, by simp [hcs], hdigits c (by simp)⟩

theorem isNumber_chars (h : isNumber cs = true) :
    (∀ c ∈ cs, isNumberChar c = true) ∧ ∃ c t, cs = c :: t ∧ (c.isDigit = true ∨ c = '-') := by
  unfold isNumber at h
  split at h
  · rename_i body
    refine ⟨fun c hc => ?_, '-', body, rfl, .inr rfl⟩
    rcases List.mem_cons.mp hc with rfl | hc
    · rfl
    · exact (isUnsigned_chars h).1 c hc
  · obtain ⟨hall, c, t, hcs, hd⟩ := isUnsigned_chars h
    exact ⟨hall, c, t, hcs, .inl hd⟩

theorem takeWhile_token {token : List Char} (h : ∀ c ∈ token, isNumberChar c = true) (hs : Stops rest) :
    (token ++ rest).takeWhile isNumberChar = token ∧ (token ++ rest).dropWhile isNumberChar = rest := by
  have hstop : rest.takeWhile isNumberChar = [] ∧ rest.dropWhile isNumberChar = rest := by
    cases rest with
    | nil => exact ⟨rfl, rfl⟩
    | cons c cs =>
      have hc : isNumberChar c = false := hs c rfl
      simp [hc]
  rw [List.takeWhile_append_of_pos h, List.dropWhile_append_of_pos h, hstop.1, hstop.2, List.append_nil]
  exact ⟨rfl, rfl⟩

theorem parseLiteral_number (hc : c.isDigit = true ∨ c = '-') (cs : List Char) : parseLiteral (c :: cs) = none := by
  have hne : ∀ l ∈ literals, l.1.isPrefixOf (c :: cs) = false := by
    intro l hl
    simp only [literals, List.mem_cons, List.not_mem_nil, or_false] at hl
    rcases hl with rfl | rfl | rfl <;> rcases hc with hc | rfl <;> simp [List.isPrefixOf]
    all_goals
      rintro rfl
      exact absurd hc (by decide)
  simp only [parseLiteral, Option.map_eq_none_iff, List.find?_eq_none]
  intro l hl
  rw [hne l hl]
  decide

theorem parseNumber_token (n : Number) (hs : Stops rest) :
    parseNumber (n.token.toList ++ rest) = some (.number n, rest) := by
  obtain ⟨ht, hd⟩ := takeWhile_token (isNumber_chars n.valid).1 hs
  unfold parseNumber
  simp only [ht, hd, n.valid, dite_true, String.ofList_toList]

theorem parseScalar_print (f : Format) {s : Scalar} (hstr : ∀ t, s ≠ .str t) (hs : Stops rest) :
    parseScalar (printScalar f s ++ rest) = some (s, rest) := by
  cases s with
  | null => simp [parseScalar, parseLiteral, literals, printScalar, List.isPrefixOf]
  | bool b => cases b <;> simp [parseScalar, parseLiteral, literals, printScalar, List.isPrefixOf]
  | number n =>
    obtain ⟨-, c, t, hc, hd⟩ := isNumber_chars n.valid
    rw [parseScalar, printScalar, parseNumber_token n hs]
    rw [hc, List.cons_append, parseLiteral_number hd]
    rfl
  | str t => exact absurd rfl (hstr t)

/-! ## Values -/

mutual
def weight : Value → Nat
  | .scalar _ => 1
  | .arr items => 1 + weightItems items
  | .obj fields => 1 + weightFields fields
  termination_by structural v => v
def weightItems : List Value → Nat
  | [] => 0
  | v :: items => 1 + weight v + weightItems items
  termination_by structural items => items
def weightFields : List (String × Value) → Nat
  | [] => 0
  | (_, v) :: fields => 1 + weight v + weightFields fields
  termination_by structural fields => fields
end

theorem stops_cons (h : isNumberChar c = false) (cs : List Char) : Stops (c :: cs) := by
  intro d hd
  cases hd
  exact h

theorem stops_newline (f : Format) (level : Nat) (h : isNumberChar c = false) (cs : List Char) :
    Stops (newline f level ++ c :: cs) := by
  unfold newline
  cases f.indent with
  | none => exact stops_cons h cs
  | some n => exact stops_cons (by decide) _

theorem skipSpace_newline (f : Format) (level : Nat) (h : isSpace c = false) (cs : List Char) :
    skipSpace (newline f level ++ c :: cs) = c :: cs := by
  rw [skipSpace_append (space_newline f level), skipSpace_cons h]

theorem print_head (f : Format) (level : Nat) (v : Value) :
    ∃ c t, print f level v = c :: t ∧ isSpace c = false ∧ c ≠ ']' ∧ c ≠ '}' := by
  cases v with
  | scalar s =>
    cases s with
    | null => exact ⟨_, _, rfl, rfl, by decide, by decide⟩
    | bool b => cases b <;> exact ⟨_, _, rfl, rfl, by decide, by decide⟩
    | number n =>
      obtain ⟨-, c, t, hc, hd⟩ := isNumber_chars n.valid
      refine ⟨c, t, hc, ?_⟩
      rcases hd with hd | rfl
      · refine ⟨?_, ?_, ?_⟩
        · simp only [isSpace, Bool.or_eq_false_iff, decide_eq_false_iff_not]
          refine ⟨⟨⟨?_, ?_⟩, ?_⟩, ?_⟩ <;> rintro rfl <;> exact absurd hd (by decide)
        · rintro rfl
          exact absurd hd (by decide)
        · rintro rfl
          exact absurd hd (by decide)
      · exact ⟨by decide, by decide, by decide⟩
    | str s => exact ⟨_, _, rfl, rfl, by decide, by decide⟩
  | arr items => cases items <;> exact ⟨_, _, rfl, rfl, by decide, by decide⟩
  | obj fields =>
    cases fields with
    | nil => exact ⟨_, _, rfl, rfl, by decide, by decide⟩
    | cons e fields => exact ⟨_, _, rfl, rfl, by decide, by decide⟩

def Reads (f : Format) (v : Value) : Prop :=
  ∀ (level n : Nat) (ws rest : List Char), (∀ c ∈ ws, isSpace c = true) → Stops rest → weight v ≤ n →
    parseValue n (ws ++ (print f level v ++ rest)) = some (v, rest)

theorem reads_scalar (f : Format) (s : Scalar) : Reads f (.scalar s) := by
  intro level n ws rest hws hrest hn
  obtain ⟨m, rfl⟩ : ∃ m, n = m + 1 := ⟨n - 1, by rw [weight] at hn; omega⟩
  rw [parseValue, skipSpace_append hws]
  by_cases hstr : ∃ t, s = .str t
  · obtain ⟨t, rfl⟩ := hstr
    have hq : isSpace doubleQuote = false := by decide
    have hread := parseString_printString f t rest
    rw [printString, List.cons_append, List.tail_cons] at hread
    rw [print, printScalar, printString, List.cons_append, List.cons_append, skipSpace_cons hq]
    simp only [if_true, hread, Option.map_some]
  obtain ⟨c, t, hc, hsp, -, -⟩ := print_head f level (.scalar s)
  have hread := parseScalar_print f (fun t ht => hstr ⟨t, ht⟩) hrest
  rw [print] at hc ⊢
  rw [hc, List.cons_append] at hread ⊢
  rw [skipSpace_cons hsp]
  have hne : c ≠ doubleQuote ∧ c ≠ '[' ∧ c ≠ '{' := by
    cases s with
    | null => cases hc; decide
    | bool b => cases b <;> cases hc <;> decide
    | number k =>
      obtain ⟨-, c', t', hc', hd⟩ := isNumber_chars k.valid
      rw [printScalar, hc'] at hc
      cases hc
      rcases hd with hd | rfl
      · refine ⟨?_, ?_, ?_⟩ <;> rintro rfl <;> exact absurd hd (by decide)
      · decide
    | str u => exact absurd ⟨u, rfl⟩ hstr
  simp only [hne.1, hne.2.1, hne.2.2, if_false, hread, Option.map_some]

theorem parseKey_printString (f : Format) (k : String) (hws : ∀ c ∈ ws, isSpace c = true) (rest : List Char) :
    parseKey (ws ++ (printString f k ++ (colon f ++ rest))) = some (k, List.replicate f.afterColon ' ' ++ rest) := by
  have hread := parseString_printString f k (colon f ++ rest)
  rw [printString, List.cons_append, List.tail_cons] at hread
  have hq : isSpace doubleQuote = false := by decide
  have hc : isSpace ':' = false := by decide
  rw [parseKey, skipSpace_append hws, printString, List.cons_append, List.cons_append, skipSpace_cons hq]
  simp only [if_true, hread]
  simp only [colon, List.cons_append, skipSpace_cons hc, List.head?_cons, List.tail_cons, if_true]

mutual
theorem reads_print (f : Format) : ∀ v : Value, Reads f v
  | .scalar s => reads_scalar f s
  | .arr [] => by
    intro level n ws rest hws hrest hn
    obtain ⟨m, rfl⟩ : ∃ m, n = m + 1 := ⟨n - 1, by rw [weight] at hn; omega⟩
    rw [parseValue, skipSpace_append hws, print]
    rfl
  | .arr (v :: items) => by
    intro level n ws rest hws hrest hn
    obtain ⟨m, rfl⟩ : ∃ m, n = m + 1 := ⟨n - 1, by rw [weight] at hn; omega⟩
    have hitems := parseItems_print f items v (reads_print f v) (level + 1) level m (newline f (level + 1)) rest
      (space_newline f _) (by rw [weight, weightItems] at hn; omega)
    obtain ⟨c, t, hc, hsp, hclose, -⟩ := print_head f (level + 1) v
    have hfirst : (skipSpace (newline f (level + 1) ++ (print f (level + 1) v ++ (printItems f (level + 1) items ++
        (newline f level ++ ']' :: rest))))).head? = some c := by
      rw [skipSpace_append (space_newline f _), hc, List.cons_append, skipSpace_cons hsp, List.head?_cons]
    have hb : isSpace '[' = false := by decide
    have hq : ('[' = doubleQuote) = False := by decide
    rw [parseValue, skipSpace_append hws, print]
    simp only [List.cons_append, List.append_assoc, List.nil_append, skipSpace_cons hb, hq, if_false, if_true, hfirst,
      Option.some.injEq, hclose, hitems, Option.map_some]
  | .obj [] => by
    intro level n ws rest hws hrest hn
    obtain ⟨m, rfl⟩ : ∃ m, n = m + 1 := ⟨n - 1, by rw [weight] at hn; omega⟩
    rw [parseValue, skipSpace_append hws, print]
    rfl
  | .obj ((k, v) :: fields) => by
    intro level n ws rest hws hrest hn
    obtain ⟨m, rfl⟩ : ∃ m, n = m + 1 := ⟨n - 1, by rw [weight] at hn; omega⟩
    have hfields := parseFields_print f fields k v (reads_print f v) (level + 1) level m (newline f (level + 1)) rest
      (space_newline f _) (by rw [weight, weightFields] at hn; omega)
    have hfirst : (skipSpace (newline f (level + 1) ++ (printString f k ++ (colon f ++ (print f (level + 1) v ++
        (printFields f (level + 1) fields ++ (newline f level ++ '}' :: rest))))))).head? = some doubleQuote := by
      rw [skipSpace_append (space_newline f _), printString, List.cons_append, List.cons_append, skipSpace_cons (by decide),
        List.head?_cons]
    have hb : isSpace '{' = false := by decide
    have hq : ('{' = doubleQuote) = False := by decide
    have ha : ('{' = '[') = False := by decide
    have hd : (doubleQuote = '}') = False := by decide
    rw [parseValue, skipSpace_append hws, print]
    simp only [List.cons_append, List.append_assoc, List.nil_append, skipSpace_cons hb, hq, ha, if_false, if_true, hfirst,
      Option.some.injEq, hd, hfields, Option.map_some]
theorem parseItems_print (f : Format) : ∀ (items : List Value) (v : Value), Reads f v →
    ∀ (level outer n : Nat) (ws rest : List Char), (∀ c ∈ ws, isSpace c = true) → 1 + weight v + weightItems items ≤ n →
    parseItems n (ws ++ (print f level v ++ (printItems f level items ++ (newline f outer ++ ']' :: rest)))) =
      some (v :: items, rest)
  | [], v, hv, level, outer, n, ws, rest, hws, hn => by
    obtain ⟨m, rfl⟩ : ∃ m, n = m + 1 := ⟨n - 1, by omega⟩
    have hread := hv level m ws (newline f outer ++ ']' :: rest) hws (stops_newline f outer (by decide) rest) (by omega)
    have hcomma : (']' = ',') = False := by decide
    rw [parseItems, printItems, List.nil_append, hread]
    simp only [skipSpace_newline f outer (c := ']') (by decide) rest, hcomma, if_false, if_true]
  | w :: items, v, hv, level, outer, n, ws, rest, hws, hn => by
    rw [weightItems] at hn
    obtain ⟨m, rfl⟩ : ∃ m, n = m + 1 := ⟨n - 1, by omega⟩
    have hread := hv level m ws (comma f ++ (newline f level ++ (print f level w ++ (printItems f level items ++
      (newline f outer ++ ']' :: rest))))) hws (stops_cons (by decide) _) (by omega)
    have hitems := parseItems_print f items w (reads_print f w) level outer m
      (List.replicate f.afterComma ' ' ++ newline f level) rest
      (List.forall_mem_append.mpr ⟨space_replicate _, space_newline f _⟩) (by omega)
    have hsp : isSpace ',' = false := by decide
    rw [parseItems, printItems]
    simp only [List.append_assoc] at hitems ⊢
    rw [hread]
    simp only [comma, List.cons_append, skipSpace_cons hsp, if_true, hitems, Option.map_some]
theorem parseFields_print (f : Format) : ∀ (fields : List (String × Value)) (k : String) (v : Value), Reads f v →
    ∀ (level outer n : Nat) (ws rest : List Char), (∀ c ∈ ws, isSpace c = true) → 1 + weight v + weightFields fields ≤ n →
    parseFields n (ws ++ (printString f k ++ (colon f ++ (print f level v ++ (printFields f level fields ++
      (newline f outer ++ '}' :: rest)))))) = some ((k, v) :: fields, rest)
  | [], k, v, hv, level, outer, n, ws, rest, hws, hn => by
    obtain ⟨m, rfl⟩ : ∃ m, n = m + 1 := ⟨n - 1, by omega⟩
    have hread := hv level m (List.replicate f.afterColon ' ') (newline f outer ++ '}' :: rest) (space_replicate _)
      (stops_newline f outer (by decide) rest) (by omega)
    have hcomma : ('}' = ',') = False := by decide
    rw [parseFields, parseKey_printString f k hws, printFields, List.nil_append]
    simp only [hread, skipSpace_newline f outer (c := '}') (by decide) rest, hcomma, if_false, if_true]
  | (k', w) :: fields, k, v, hv, level, outer, n, ws, rest, hws, hn => by
    rw [weightFields] at hn
    obtain ⟨m, rfl⟩ : ∃ m, n = m + 1 := ⟨n - 1, by omega⟩
    have hread := hv level m (List.replicate f.afterColon ' ') (comma f ++ (newline f level ++ (printString f k' ++
      (colon f ++ (print f level w ++ (printFields f level fields ++ (newline f outer ++ '}' :: rest))))))) (space_replicate _)
      (stops_cons (by decide) _) (by omega)
    have hfields := parseFields_print f fields k' w (reads_print f w) level outer m
      (List.replicate f.afterComma ' ' ++ newline f level) rest
      (List.forall_mem_append.mpr ⟨space_replicate _, space_newline f _⟩) (by omega)
    have hsp : isSpace ',' = false := by decide
    rw [parseFields, parseKey_printString f k hws, printFields]
    simp only [List.append_assoc] at hfields ⊢
    simp only [hread]
    simp only [comma, List.cons_append, skipSpace_cons hsp, if_true, hfields, Option.map_some]
end

mutual
theorem weight_le_print (f : Format) : ∀ (v : Value) (level : Nat), weight v ≤ (print f level v).length
  | .scalar s, level => by
    obtain ⟨c, t, hc, -⟩ := print_head f level (.scalar s)
    rw [hc, weight, List.length_cons]
    omega
  | .arr [], level => by simp [weight, weightItems, print]
  | .arr (v :: items), level => by
    have hv := weight_le_print f v (level + 1)
    have hitems := weightItems_le_print f items (level + 1)
    rw [weight, weightItems, print]
    simp only [List.length_cons, List.length_append, List.length_nil]
    omega
  | .obj [], level => by simp [weight, weightFields, print]
  | .obj ((k, v) :: fields), level => by
    have hv := weight_le_print f v (level + 1)
    have hfields := weightFields_le_print f fields (level + 1)
    rw [weight, weightFields, print]
    simp only [List.length_cons, List.length_append, List.length_nil]
    omega
theorem weightItems_le_print (f : Format) : ∀ (items : List Value) (level : Nat), weightItems items ≤ (printItems f level items).length
  | [], level => by simp [weightItems]
  | v :: items, level => by
    have hv := weight_le_print f v level
    have hitems := weightItems_le_print f items level
    rw [weightItems, printItems]
    simp only [comma, List.length_cons, List.length_append]
    omega
theorem weightFields_le_print (f : Format) : ∀ (fields : List (String × Value)) (level : Nat),
    weightFields fields ≤ (printFields f level fields).length
  | [], level => by simp [weightFields]
  | (k, v) :: fields, level => by
    have hv := weight_le_print f v level
    have hfields := weightFields_le_print f fields level
    rw [weightFields, printFields]
    simp only [comma, List.length_cons, List.length_append]
    omega
end

theorem loads_dumps_space (f : Format) (v : Value) (before after : List Char) (hb : ∀ c ∈ before, isSpace c = true)
    (ha : ∀ c ∈ after, isSpace c = true) : loads (before ++ (dumps f v ++ after)) = some v := by
  have hstops : Stops after := by
    intro c hc
    have hsp := ha c (List.mem_of_mem_head? hc)
    simp only [isSpace, Bool.or_eq_true, decide_eq_true_eq] at hsp
    rcases hsp with ((rfl | rfl) | rfl) | rfl <;> rfl
  have hweight := weight_le_print f v 0
  have hread := reads_print f v 0 ((before ++ (dumps f v ++ after)).length + 1) before after hb hstops (by
    rw [List.length_append, List.length_append, dumps]
    omega)
  rw [← dumps] at hread
  have hrest : skipSpace after = [] := by
    have h := skipSpace_append ha []
    rwa [List.append_nil] at h
  rw [loads, hread]
  simp only [hrest, if_true]

theorem loads_dumps (f : Format) (v : Value) : loads (dumps f v) = some v := by
  have h := loads_dumps_space f v [] [] (by simp) (by simp)
  simpa using h

end JsonText

end Lib
