import Mathlib.Algebra.Group.Nat.Defs
import Mathlib.Data.Int.Notation

/-!
# Text as Python writes and reads it

`textRepr` is `repr` of a `str`; `fromisoformat` reads the calendar forms of an
ISO 8601 timestamp, extended or basic. A `Stamp` is a local time in
microseconds since the epoch, with its offset from UTC when it has one.
-/

namespace Lib

/-! ## Deciding a property of a text's characters

Along the text, also where another instance would try every character there is.
-/

instance (priority := high) decidableAllChars (p : Char → Prop) [DecidablePred p] (cs : List Char) :
    Decidable (∀ c ∈ cs, p c) := List.decidableBAll p cs

instance (priority := high) decidableSomeChar (p : Char → Prop) [DecidablePred p] (cs : List Char) :
    Decidable (∃ c ∈ cs, p c) := List.decidableBEx p cs

instance (priority := high) decidableAllChar? (p : Char → Prop) [DecidablePred p] (o : Option Char) :
    Decidable (∀ c ∈ o, p c) := o.decidableForallMem

instance (priority := high) decidableSomeChar? (p : Char → Prop) [DecidablePred p] (o : Option Char) :
    Decidable (∃ c ∈ o, p c) := o.decidableExistsMem

/-! ## repr -/

def quote : Char := Char.ofNat 39

def doubleQuote : Char := Char.ofNat 34

def hexDigits (width n : Nat) : List Char :=
  (List.range width).reverse.map fun i => Nat.digitChar (n / 16 ^ i % 16)

/-- One character inside quotes `q`. Code points from U+00A1 on count as printable, except the soft hyphen. -/
def textReprChar (q c : Char) : List Char :=
  if c = q ∨ c = Char.ofNat 92 then [Char.ofNat 92, c]
  else if c = Char.ofNat 10 then [Char.ofNat 92, 'n']
  else if c = Char.ofNat 13 then [Char.ofNat 92, 'r']
  else if c = Char.ofNat 9 then [Char.ofNat 92, 't']
  else if c.toNat < 32 ∨ (127 ≤ c.toNat ∧ c.toNat ≤ 160) ∨ c.toNat = 173 then Char.ofNat 92 :: 'x' :: hexDigits 2 c.toNat
  else [c]

def textRepr (s : String) : String :=
  let q := if quote ∈ s.toList ∧ doubleQuote ∉ s.toList then doubleQuote else quote
  String.ofList (q :: s.toList.flatMap (textReprChar q) ++ [q])

def textReprOpt : Option String → String
  | none => "None"
  | some s => textRepr s

def truthy (s : Option String) : Bool := s.getD "" ≠ ""

def pyOr (a b : Option String) : Option String := if truthy a then a else b

def isPythonSpace (c : Char) : Bool :=
  let n := c.toNat
  (9 ≤ n && n ≤ 13) || (28 ≤ n && n ≤ 32) || n = 133 || n = 160 || n = 5760 || (8192 ≤ n && n ≤ 8202) || n = 8232 ||
    n = 8233 || n = 8239 || n = 8287 || n = 12288

def blank (s : String) : Bool := s.toList.all isPythonSpace

/-! ## Timestamps -/

structure Stamp where
  micros : Int
  offset : Option Int
deriving DecidableEq

def takeNat (n : Nat) (cs : List Char) : Option (Nat × List Char) :=
  let ds := cs.take n
  if ds.length = n ∧ ds.all Char.isDigit then
    some (ds.foldl (fun v c => 10 * v + (c.toNat - 48)) 0, cs.drop n)
  else none

def isLeap (y : Nat) : Bool := (y % 4 == 0 && y % 100 != 0) || y % 400 == 0

def daysInMonth (y m : Nat) : Nat :=
  if m = 2 then (if isLeap y then 29 else 28) else if m = 4 ∨ m = 6 ∨ m = 9 ∨ m = 11 then 30 else 31

def daysFromCivil (y m d : Nat) : Int :=
  let y' := if m ≤ 2 then y - 1 else y
  let yoe := y' % 400
  let doy := (153 * ((m + 9) % 12) + 2) / 5 + d - 1
  (y' / 400 * 146097 + yoe * 365 + yoe / 4 - yoe / 100 + doy : Nat) - 719468

def parseDate (cs : List Char) : Option (Int × List Char) := do
  let (y, cs) ← takeNat 4 cs
  let dashed := cs.head? = some '-'
  let (m, cs) ← takeNat 2 (if dashed then cs.tail else cs)
  if dashed ∧ cs.head? ≠ some '-' then none
  let (d, cs) ← takeNat 2 (if dashed then cs.tail else cs)
  if 1 ≤ y ∧ 1 ≤ m ∧ m ≤ 12 ∧ 1 ≤ d ∧ d ≤ daysInMonth y m then some (daysFromCivil y m d, cs) else none

def parseFraction (cs : List Char) : Option (Nat × List Char) :=
  let ds := cs.takeWhile Char.isDigit
  if ds = [] then none
  else (takeNat 6 (ds.take 6 ++ List.replicate (6 - ds.length) '0')).map fun r => (r.1, cs.drop ds.length)

def parseClock (cs : List Char) : Option (Nat × List Char) := do
  let (h, cs) ← takeNat 2 cs
  let colon := cs.head? = some ':'
  let more (cs : List Char) : Bool := if colon then cs.head? = some ':' else (cs.head?.map Char.isDigit).getD false
  let field (cs : List Char) := takeNat 2 (if colon then cs.tail else cs)
  let (m, cs, hasMinute) ← if more cs then (field cs).map fun r => (r.1, r.2, true) else some (0, cs, false)
  let (s, cs, hasSecond) ← if hasMinute ∧ more cs then (field cs).map fun r => (r.1, r.2, true) else some (0, cs, false)
  let (f, cs) ← if hasSecond ∧ (cs.head? = some '.' ∨ cs.head? = some ',') then parseFraction cs.tail else some (0, cs)
  if h < 24 ∧ m < 60 ∧ s < 60 then some (((h * 60 + m) * 60 + s) * 1000000 + f, cs) else none

def parseOffset : List Char → Option (Option Int)
  | [] => some none
  | ['Z'] => some (some 0)
  | '+' :: cs => do
    let (v, rest) ← parseClock cs
    if rest = [] then some (some (v : Int)) else none
  | '-' :: cs => do
    let (v, rest) ← parseClock cs
    if rest = [] then some (some (-(v : Int))) else none
  | _ => none

def fromisoformat (s : String) : Option Stamp := do
  let (days, cs) ← parseDate s.toList
  match cs with
  | [] => some ⟨days * 86400000000, none⟩
  | _ :: cs =>
    let (clock, cs) ← parseClock cs
    let offset ← parseOffset cs
    some ⟨days * 86400000000 + clock, offset⟩

def Stamp.utc (s : Stamp) : Int := s.micros - s.offset.getD 0

/-- Microseconds from a written stamp to the instant `now`; `none` when `parse` rejects the stamp. -/
def ageMicros (parse : String → Option Stamp) (stamp : String) (now : Int) : Option Int :=
  (parse stamp).map fun s => now - s.utc

/-! ## Writing a timestamp -/

def padNat (width n : Nat) : List Char :=
  let ds := Nat.toDigits 10 n
  List.replicate (width - ds.length) '0' ++ ds

def civilFromDays (days : Int) : Nat × Nat × Nat :=
  let z := (days + 719468).toNat
  let era := z / 146097
  let doe := z % 146097
  let yoe := (doe - doe / 1460 + doe / 36524 - doe / 146096) / 365
  let doy := doe - (365 * yoe + yoe / 4 - yoe / 100)
  let mp := (5 * doy + 2) / 153
  let month := if mp < 10 then mp + 3 else mp - 9
  ((if month ≤ 2 then 1 else 0) + yoe + era * 400, month, doy - (153 * mp + 2) / 5 + 1)

def clockChars (micros : Nat) : List Char :=
  let s := micros / 1000000
  padNat 2 (s / 3600) ++ ':' :: padNat 2 (s / 60 % 60) ++ ':' :: padNat 2 (s % 60) ++
    if micros % 1000000 = 0 then [] else '.' :: padNat 6 (micros % 1000000)

def offsetChars (offset : Int) : List Char :=
  let m := offset.natAbs
  (if offset < 0 then '-' else '+') ::
    if m % 60000000 = 0 then padNat 2 (m / 3600000000) ++ ':' :: padNat 2 (m / 60000000 % 60) else clockChars m

def isoformat (s : Stamp) : String :=
  let date := civilFromDays (s.micros / 86400000000)
  String.ofList (padNat 4 date.1 ++ '-' :: padNat 2 date.2.1 ++ '-' :: padNat 2 date.2.2 ++ 'T' ::
    clockChars (s.micros % 86400000000).toNat ++ (s.offset.map offsetChars).getD [])

structure Clock where
  parse : String → Option Stamp
  format : Stamp → String

def pythonClock : Clock := ⟨fromisoformat, isoformat⟩

example : isoformat ⟨1785924000500000, some 7200000000⟩ = "2026-08-05T10:00:00.500000+02:00" := by decide

example : fromisoformat "2026-08-05T10:00:00.5+02:00" = some ⟨1785924000500000, some 7200000000⟩ := by decide

namespace Stamp

/-! ## Comparing timestamps

Python orders and subtracts two datetimes only when both have an offset or
neither has one; anything else is a `TypeError`.
-/

def aware (s : Stamp) : Bool := s.offset.isSome

/-- `a - b` in microseconds; no value stands for the `TypeError`. -/
def sub? (a b : Stamp) : Option Int :=
  match a.offset, b.offset with
  | some _, some _ => some (a.utc - b.utc)
  | none, none => some (a.micros - b.micros)
  | _, _ => none

/-- `a < b`. -/
def lt? (a b : Stamp) : Option Bool := (sub? a b).map fun d => decide (d < 0)

def minus (a : Stamp) (micros : Int) : Stamp := { a with micros := a.micros - micros }

variable {a b : Stamp} {d : Int}

@[simp] theorem minus_aware (a : Stamp) (m : Int) : (a.minus m).aware = a.aware := rfl

@[simp] theorem minus_utc (a : Stamp) (m : Int) : (a.minus m).utc = a.utc - m := by
  simp only [minus, utc]
  omega

theorem sub?_eq_some : sub? a b = some d ↔ a.aware = b.aware ∧ d = a.utc - b.utc := by
  unfold sub? aware utc
  cases a.offset <;> cases b.offset <;> simp [eq_comm]

theorem sub?_self (a : Stamp) : sub? a a = some 0 := by
  rw [sub?_eq_some]
  exact ⟨rfl, by omega⟩

theorem sub?_trans {c : Stamp} {e : Int} (h : sub? a b = some d) (h' : sub? b c = some e) :
    sub? a c = some (d + e) := by
  rw [sub?_eq_some] at h h' ⊢
  exact ⟨h.1.trans h'.1, by omega⟩

theorem sub?_symm (h : sub? a b = some d) : sub? b a = some (-d) := by
  rw [sub?_eq_some] at h ⊢
  exact ⟨h.1.symm, by omega⟩

theorem sub?_minus {m : Int} : sub? a (b.minus m) = (sub? a b).map fun d => d + m := by
  cases h : sub? a b with
  | none =>
    rw [Option.map_none, Option.eq_none_iff_forall_ne_some]
    intro d hd
    rw [sub?_eq_some, minus_aware] at hd
    exact absurd (h.symm.trans (sub?_eq_some.mpr ⟨hd.1, rfl⟩)) (by simp)
  | some d =>
    rw [sub?_eq_some] at h
    rw [Option.map_some, sub?_eq_some, minus_aware, minus_utc]
    exact ⟨h.1, by omega⟩

end Stamp

end Lib
