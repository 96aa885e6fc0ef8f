import AgentsRemember.Lib.Json
import AgentsRemember.Lib.Text
import Mathlib.Data.List.TakeWhile

/-!
# JSON text

Trees of JSON values, written as `json.dumps` and `model_dump_json` write them,
and read by the grammar of a JSON document. A number is kept as the token that
spells it; the names `NaN` and `Infinity`, which `json.loads` also takes, are
refused. A string is a sequence of characters, so an escape for a lone surrogate
spells none and is refused.
-/

namespace Lib

namespace JsonText

/-! ## Strings -/

def backslash : Char := Char.ofNat 92

def shortEscapes : List (Char × Char) :=
  [(doubleQuote, doubleQuote), (backslash, backslash), (Char.ofNat 8, 'b'), (Char.ofNat 12, 'f'), ('\n', 'n'), ('\r', 'r'),
    ('\t', 't')]

def unicodeEscape (n : Nat) : List Char := backslash :: 'u' :: hexDigits 4 n

def escapeChar (ascii : Bool) (c : Char) : List Char :=
  match Dict.lookupIn c shortEscapes with
  | some e => [backslash, e]
  | none =>
    if c.toNat < 32 ∨ (ascii = true ∧ 126 < c.toNat) then
      if c.toNat < 65536 then unicodeEscape c.toNat
      else unicodeEscape (55296 + (c.toNat - 65536) / 1024) ++ unicodeEscape (56320 + (c.toNat - 65536) % 1024)
    else [c]

def escape (ascii : Bool) (cs : List Char) : List Char := cs.flatMap (escapeChar ascii)

def scanString : List Char → Option (List Char × List Char)
  | [] => none
  | [c] => if c = doubleQuote then some ([], []) else none
  | c :: d :: cs =>
    if c = doubleQuote then some ([], d :: cs)
    else if c = backslash then (scanString cs).map fun r => (c :: d :: r.1, r.2)
    else if c.toNat < 32 then none
    else (scanString (d :: cs)).map fun r => (c :: r.1, r.2)

def hexValue (c : Char) : Option Nat :=
  if c.isDigit then some (c.toNat - 48)
  else if 'a' ≤ c ∧ c ≤ 'f' then some (c.toNat - 87)
  else if 'A' ≤ c ∧ c ≤ 'F' then some (c.toNat - 55)
  else none

def hexValues : List Char → Option Nat
  | cs => cs.foldl (fun n c => n.bind fun n => (hexValue c).map fun d => 16 * n + d) (some 0)

def isSurrogate (n : Nat) : Bool := 55296 ≤ n && n < 57344

def unescapeChar : List Char → Option (Char × List Char)
  | [] => none
  | c :: cs =>
    if c = 'u' then
      match hexValues (cs.take 4) with
      | none => none
      | some n =>
        if (cs.take 4).length ≠ 4 then none
        else if isSurrogate n = false then some (Char.ofNat n, cs.drop 4)
        else if 56320 ≤ n ∨ (cs.drop 4).take 2 ≠ [backslash, 'u'] then none
        else
          match hexValues ((cs.drop 6).take 4) with
          | none => none
          | some m =>
            if ((cs.drop 6).take 4).length ≠ 4 ∨ m < 56320 ∨ 57344 ≤ m then none
            else some (Char.ofNat (65536 + (n - 55296) * 1024 + (m - 56320)), cs.drop 10)
    else if c = '/' then some (c, cs)
    else (Dict.lookupIn c (shortEscapes.map fun e => (e.2, e.1))).map fun d => (d, cs)

def unescapeFuel : Nat → List Char → Option (List Char)
  | _, [] => some []
  | 0, _ => none
  | n + 1, c :: cs =>
    if c = backslash then
      match unescapeChar cs with
      | none => none
      | some (d, rest) => (unescapeFuel n rest).map (d :: ·)
    else (unescapeFuel n cs).map (c :: ·)

def unescape (cs : List Char) : Option (List Char) := unescapeFuel cs.length cs

def parseString (cs : List Char) : Option (String × List Char) :=
  match scanString cs with
  | none => none
  | some (body, rest) => (unescape body).map fun s => (String.ofList s, rest)

/-! ## Numbers -/

def isNumberChar (c : Char) : Bool := c.isDigit || c = '-' || c = '+' || c = '.' || c = 'e' || c = 'E'

def isDigits (cs : List Char) : Bool := cs ≠ [] && cs.all Char.isDigit

def isInteger (cs : List Char) : Bool := cs = ['0'] || (isDigits cs && cs.head? ≠ some '0')

def isExponent : List Char → Bool
  | '+' :: cs => isDigits cs
  | '-' :: cs => isDigits cs
  | cs => isDigits cs

def isUnsigned (cs : List Char) : Bool :=
  let mantissa := cs.takeWhile fun c => c ≠ 'e' && c ≠ 'E'
  isInteger (mantissa.takeWhile (· ≠ '.')) &&
    (match mantissa.dropWhile (· ≠ '.') with
      | [] => true
      | _ :: digits => isDigits digits) &&
    (match cs.dropWhile fun c => c ≠ 'e' && c ≠ 'E' with
      | [] => true
      | _ :: digits => isExponent digits)

def isNumber : List Char → Bool
  | '-' :: cs => isUnsigned cs
  | cs => isUnsigned cs

structure Number where
  token : String
  valid : isNumber token.toList = true

/-! ## Values -/

inductive Scalar
  | null
  | bool (b : Bool)
  | number (n : Number)
  | str (s : String)

abbrev Value := Json Scalar

def text (s : String) : Value := .scalar (.str s)

def asText : Value → Option String
  | .scalar (.str s) => some s
  | _ => none

def asObject : Value → Option (List (String × Value))
  | .obj fields => some fields
  | _ => none

def field (fields : List (String × Value)) (key : String) : Option Value := Dict.lookupIn key fields.reverse

def literals : List (List Char × Scalar) :=
  [(['n', 'u', 'l', 'l'], .null), (['t', 'r', 'u', 'e'], .bool true), (['f', 'a', 'l', 's', 'e'], .bool false)]

/-- How a document is laid out: `indent` spaces a level on lines of their own, and spaces after `,` and `:`. -/
structure Format where
  ascii : Bool
  indent : Option Nat
  afterComma : Nat
  afterColon : Nat

/-- `model_dump_json`, and `json.dumps` with the separators `","` and `":"`. -/
def compact : Format := ⟨false, none, 0, 0⟩

def newline (f : Format) (level : Nat) : List Char :=
  match f.indent with
  | none => []
  | some n => '\n' :: List.replicate (n * level) ' '

def printString (f : Format) (s : String) : List Char := doubleQuote :: escape f.ascii s.toList ++ [doubleQuote]

def printScalar (f : Format) : Scalar → List Char
  | .null => ['n', 'u', 'l', 'l']
  | .bool true => ['t', 'r', 'u', 'e']
  | .bool false => ['f', 'a', 'l', 's', 'e']
  | .number n => n.token.toList
  | .str s => printString f s

def comma (f : Format) : List Char := ',' :: List.replicate f.afterComma ' '

def colon (f : Format) : List Char := ':' :: List.replicate f.afterColon ' '

mutual
def print (f : Format) (level : Nat) : Value → List Char
  | .scalar s => printScalar f s
  | .arr [] => ['[', ']']
  | .arr (v :: items) =>
    '[' :: newline f (level + 1) ++ print f (level + 1) v ++ printItems f (level + 1) items ++ newline f level ++ [']']
  | .obj [] => ['{', '}']
  | .obj ((k, v) :: fields) =>
    '{' :: newline f (level + 1) ++ printString f k ++ colon f ++ print f (level + 1) v ++ printFields f (level + 1) fields ++
      newline f level ++ ['}']
  termination_by structural v => v
def printItems (f : Format) (level : Nat) : List Value → List Char
  | [] => []
  | v :: items => comma f ++ newline f level ++ print f level v ++ printItems f level items
  termination_by structural items => items
def printFields (f : Format) (level : Nat) : List (String × Value) → List Char
  | [] => []
  | (k, v) :: fields =>
    comma f ++ newline f level ++ printString f k ++ colon f ++ print f level v ++ printFields f level fields
  termination_by structural fields => fields
end

def dumps (f : Format) (v : Value) : List Char := print f 0 v

/-! ## Reading -/

def isSpace (c : Char) : Bool := c = ' ' || c = '\t' || c = '\n' || c = '\r'

def skipSpace (cs : List Char) : List Char := cs.dropWhile isSpace

def parseLiteral (cs : List Char) : Option (Scalar × List Char) :=
  (literals.find? fun l => l.1.isPrefixOf cs).map fun l => (l.2, cs.drop l.1.length)

def parseNumber (cs : List Char) : Option (Scalar × List Char) :=
  let token := cs.takeWhile isNumberChar
  if h : isNumber token = true then
    some (.number ⟨String.ofList token, by rw [String.toList_ofList]; exact h⟩, cs.dropWhile isNumberChar)
  else none

def parseScalar (cs : List Char) : Option (Scalar × List Char) := (parseLiteral cs).or (parseNumber cs)

def parseKey (cs : List Char) : Option (String × List Char) :=
  match skipSpace cs with
  | [] => none
  | c :: cs =>
    if c = doubleQuote then
      match parseString cs with
      | none => none
      | some (k, rest) => if (skipSpace rest).head? = some ':' then some (k, (skipSpace rest).tail) else none
    else none

mutual
def parseValue : Nat → List Char → Option (Value × List Char)
  | 0, _ => none
  | n + 1, cs =>
    match skipSpace cs with
    | [] => none
    | c :: cs =>
      if c = doubleQuote then (parseString cs).map fun r => (.scalar (.str r.1), r.2)
      else if c = '[' then
        if (skipSpace cs).head? = some ']' then some (.arr [], (skipSpace cs).tail)
        else (parseItems n cs).map fun r => (.arr r.1, r.2)
      else if c = '{' then
        if (skipSpace cs).head? = some '}' then some (.obj [], (skipSpace cs).tail)
        else (parseFields n cs).map fun r => (.obj r.1, r.2)
      else (parseScalar (c :: cs)).map fun r => (.scalar r.1, r.2)
  termination_by structural n => n
def parseItems : Nat → List Char → Option (List Value × List Char)
  | 0, _ => none
  | n + 1, cs =>
    match parseValue n cs with
    | none => none
    | some (v, rest) =>
      match skipSpace rest with
      | [] => none
      | c :: rest =>
        if c = ',' then (parseItems n rest).map fun r => (v :: r.1, r.2)
        else if c = ']' then some ([v], rest)
        else none
  termination_by structural n => n
def parseFields : Nat → List Char → Option (List (String × Value) × List Char)
  | 0, _ => none
  | n + 1, cs =>
    match parseKey cs with
    | none => none
    | some (k, rest) =>
      match parseValue n rest with
      | none => none
      | some (v, rest) =>
        match skipSpace rest with
        | [] => none
        | c :: rest =>
          if c = ',' then (parseFields n rest).map fun r => ((k, v) :: r.1, r.2)
          else if c = '}' then some ([(k, v)], rest)
          else none
  termination_by structural n => n
end

def loads (cs : List Char) : Option Value :=
  match parseValue (cs.length + 1) cs with
  | none => none
  | some (v, rest) => if skipSpace rest = [] then some v else none

/-! ## Integers of a JSON document

An integer is a number without fraction and exponent; its shortest token reads
back as the integer.
-/

def integerToken : Int → List Char
  | .ofNat n => Nat.toDigits 10 n
  | .negSucc n => '-' :: Nat.toDigits 10 (n + 1)

variable {n : Nat}

theorem toDigits_isDigit {c : Char} (h : c ∈ Nat.toDigits 10 n) : c.isDigit = true :=
  Nat.isDigit_of_mem_toDigits (by decide) (by decide) h

theorem isDigits_toDigits (n : Nat) : isDigits (Nat.toDigits 10 n) = true := by
  have hall : (Nat.toDigits 10 n).all Char.isDigit = true := List.all_eq_true.mpr fun c hc => toDigits_isDigit hc
  simp [isDigits, hall, Nat.toDigits_ne_nil]

theorem digitChar_ne_zero : ∀ n < 10, n ≠ 0 → Nat.digitChar n ≠ '0' := by decide

theorem head?_toDigits : n ≠ 0 → (Nat.toDigits 10 n).head? ≠ some '0' := by
  induction n using Nat.strongRecOn with
  | ind n ih =>
    intro hn
    by_cases hlt : n < 10
    · rw [Nat.toDigits_of_lt_base hlt, List.head?_cons, Ne, Option.some.injEq]
      exact digitChar_ne_zero n hlt hn
    have hne : Nat.toDigits 10 (n / 10) ≠ [] := Nat.toDigits_ne_nil
    rw [Nat.toDigits_of_base_le (by decide) (by omega), List.head?_append_of_ne_nil _ hne]
    exact ih (n / 10) (by omega) (by omega)

theorem toDigits_ne_minus {cs : List Char} : Nat.toDigits 10 n ≠ '-' :: cs := by
  intro h
  have hc : '-' ∈ Nat.toDigits 10 n := by
    rw [h]
    exact List.mem_cons_self
  exact absurd (toDigits_isDigit hc) (by decide)

theorem isInteger_toDigits (n : Nat) : isInteger (Nat.toDigits 10 n) = true := by
  by_cases hn : n = 0
  · subst hn
    decide
  · simp [isInteger, isDigits_toDigits, head?_toDigits hn]

theorem isUnsigned_toDigits (n : Nat) : isUnsigned (Nat.toDigits 10 n) = true := by
  have hexp : ∀ c ∈ Nat.toDigits 10 n, (c ≠ 'e' && c ≠ 'E') = true := by
    intro c hc
    have hd := toDigits_isDigit hc
    have he : c ≠ 'e' := fun h => absurd (h ▸ hd) (by decide)
    have hE : c ≠ 'E' := fun h => absurd (h ▸ hd) (by decide)
    simp [he, hE]
  have hdot : ∀ c ∈ Nat.toDigits 10 n, decide (c ≠ '.') = true := fun c hc =>
    decide_eq_true fun h => absurd (h ▸ toDigits_isDigit hc) (by decide)
  unfold isUnsigned
  rw [List.takeWhile_eq_self_iff.mpr hexp, List.dropWhile_eq_nil_iff.mpr hexp]
  dsimp only
  rw [List.takeWhile_eq_self_iff.mpr hdot, List.dropWhile_eq_nil_iff.mpr hdot, isInteger_toDigits]
  rfl

theorem isNumber_integerToken (n : Int) : isNumber (integerToken n) = true := by
  cases n with
  | ofNat n =>
    unfold isNumber integerToken
    split
    · rename_i heq
      exact absurd heq toDigits_ne_minus
    · exact isUnsigned_toDigits n
  | negSucc n => exact isUnsigned_toDigits (n + 1)

def integer (n : Int) : Value :=
  .scalar (.number ⟨String.ofList (integerToken n), by rw [String.toList_ofList]; exact isNumber_integerToken n⟩)

def asInteger : Value → Option Int
  | .scalar (.number n) =>
    match n.token.toList with
    | '-' :: digits => if isInteger digits then some (-(Nat.ofDigitChars 10 digits 0 : Int)) else none
    | digits => if isInteger digits then some (Nat.ofDigitChars 10 digits 0 : Int) else none
  | .scalar (.bool b) => some (if b then 1 else 0)
  | _ => none

theorem asInteger_integer (n : Int) : asInteger (integer n) = some n := by
  unfold asInteger integer
  dsimp only
  rw [String.toList_ofList]
  cases n with
  | ofNat n =>
    unfold integerToken
    split
    · rename_i heq
      exact absurd heq toDigits_ne_minus
    · rw [if_pos (isInteger_toDigits n), Nat.ofDigitChars_ten_toDigits]
      rfl
  | negSucc n =>
    simp only [integerToken, if_pos (isInteger_toDigits (n + 1)), Nat.ofDigitChars_ten_toDigits]
    rfl

end JsonText

end Lib
