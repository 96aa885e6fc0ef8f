import AgentsRemember.Lib.Text
import Mathlib.Data.List.DropRight
import Mathlib

/-!
# Lines of a text

`split` keeps every piece between two marks, as `str.split` does; `breakLines`
drops the piece after a last mark when it is empty. `splitlines` is Python's,
which breaks a text at more characters than the newline, and `universal` is the
newline translation of a file opened as text.
-/

namespace Lib

namespace Lines

variable {α : Type}

instance lawfulBEqChars : LawfulBEq (List Char) := inferInstance

def consHead (x : α) : List (List α) → List (List α)
  | [] => [[x]]
  | l :: ls => (x :: l) :: ls

def split (p : α → Bool) : List α → List (List α)
  | [] => [[]]
  | x :: xs => if p x then [] :: split p xs else consHead x (split p xs)

def breakLines (p : α → Bool) : List α → List (List α)
  | [] => []
  | x :: xs => if p x then [] :: breakLines p xs else consHead x (breakLines p xs)

def unlines (x : α) (ls : List (List α)) : List α := ls.flatMap (· ++ [x])

/-! ## Pieces -/

attribute [local simp] split breakLines consHead

theorem split_ne_nil (p : α → Bool) (xs : List α) : split p xs ≠ [] := by
  cases xs with
  | nil => simp
  | cons x xs =>
    rw [split]
    split
    · simp
    · cases h : split p xs <;> simp

theorem split_of_all {p : α → Bool} {xs : List α} (h : ∀ x ∈ xs, p x = false) : split p xs = [xs] := by
  induction xs with
  | nil => rfl
  | cons x xs ih =>
    rw [split, h x (by simp), ih fun y hy => h y (List.mem_cons_of_mem _ hy)]
    rfl

theorem breakLines_append (p : α → Bool) {x : α} (hx : p x = true) (xs ys : List α) :
    breakLines p (xs ++ x :: ys) = split p xs ++ breakLines p ys := by
  induction xs with
  | nil => simp [hx]
  | cons y xs ih =>
    rw [List.cons_append, breakLines, split, ih]
    split
    · rfl
    cases h : split p xs with
    | nil => exact absurd h (split_ne_nil p xs)
    | cons l ls => rfl

theorem split_append (p : α → Bool) {x : α} (hx : p x = true) (xs ys : List α) :
    split p (xs ++ x :: ys) = split p xs ++ split p ys := by
  induction xs with
  | nil => simp [hx]
  | cons y xs ih =>
    rw [List.cons_append, split, split, ih]
    split
    · rfl
    cases h : split p xs with
    | nil => exact absurd h (split_ne_nil p xs)
    | cons l ls => rfl

theorem eq_nil_of_breakLines {p : α → Bool} {xs : List α} (h : breakLines p xs = []) : xs = [] := by
  cases xs with
  | nil => rfl
  | cons x xs =>
    rw [breakLines] at h
    split at h
    · cases h
    · cases hb : breakLines p xs <;> rw [hb] at h <;> cases h

theorem breakLines_prefix (p : α → Bool) : ∀ xs : List α, breakLines p xs <+: split p xs
  | [] => List.nil_prefix
  | x :: xs => by
    obtain ⟨more, hmore⟩ := breakLines_prefix p xs
    rw [split, breakLines]
    split
    · exact ⟨more, by rw [← hmore]; rfl⟩
    cases hb : breakLines p xs with
    | nil =>
      obtain rfl := eq_nil_of_breakLines hb
      exact List.prefix_refl _
    | cons l ls =>
      rw [hb] at hmore
      exact ⟨more, by rw [← hmore]; rfl⟩

theorem breakLines_of_all {p : α → Bool} {xs : List α} (hne : xs ≠ []) (h : ∀ x ∈ xs, p x = false) : breakLines p xs = [xs] := by
  induction xs with
  | nil => exact absurd rfl hne
  | cons x xs ih =>
    rw [breakLines, h x (by simp)]
    cases xs with
    | nil => rfl
    | cons y xs =>
      rw [ih (by simp) fun z hz => h z (List.mem_cons_of_mem _ hz)]
      rfl

theorem breakLines_unlines_append (p : α → Bool) {x : α} (hx : p x = true) (ls : List (List α)) (xs : List α) :
    breakLines p (unlines x ls ++ xs) = ls.flatMap (split p) ++ breakLines p xs := by
  induction ls with
  | nil => rfl
  | cons l ls ih =>
    rw [unlines, List.flatMap_cons, List.append_assoc, List.append_assoc, List.singleton_append, breakLines_append p hx,
      List.flatMap_cons, List.append_assoc]
    rw [unlines] at ih
    rw [ih]

theorem breakLines_unlines (p : α → Bool) {x : α} (hx : p x = true) (ls : List (List α)) :
    breakLines p (unlines x ls) = ls.flatMap (split p) := by
  have h := breakLines_unlines_append p hx ls []
  rwa [List.append_nil, breakLines, List.append_nil] at h

theorem split_unlines_append {p : α → Bool} {x : α} (hx : p x = true) {ls : List (List α)} {xs : List α}
    (hls : ∀ l ∈ ls, ∀ y ∈ l, p y = false) (hxs : ∀ y ∈ xs, p y = false) : split p (unlines x ls ++ xs) = ls ++ [xs] := by
  induction ls with
  | nil => exact split_of_all hxs
  | cons l ls ih =>
    rw [List.forall_mem_cons] at hls
    rw [unlines, List.flatMap_cons, List.append_assoc, List.append_assoc, List.singleton_append, split_append p hx,
      split_of_all hls.1]
    rw [unlines] at ih
    rw [ih hls.2]
    rfl

theorem unlines_append (x : α) (ls ms : List (List α)) : unlines x (ls ++ ms) = unlines x ls ++ unlines x ms :=
  List.flatMap_append

theorem length_split (p : α → Bool) (xs : List α) : (split p xs).length = (xs.filter p).length + 1 := by
  induction xs with
  | nil => rfl
  | cons x xs ih =>
    rw [split, List.filter_cons]
    split
    · rw [List.length_cons, ih, List.length_cons]
    cases h : split p xs with
    | nil => exact absurd h (split_ne_nil p xs)
    | cons l ls =>
      rw [h] at ih
      exact ih

theorem exists_first {p : α → Bool} {xs : List α} (h : ∃ x ∈ xs, p x = true) :
    ∃ as x bs, xs = as ++ x :: bs ∧ p x = true ∧ ∀ a ∈ as, p a = false := by
  induction xs with
  | nil =>
    obtain ⟨x, hx, -⟩ := h
    cases hx
  | cons y xs ih =>
    cases hy : p y with
    | true => exact ⟨[], y, xs, rfl, hy, by simp⟩
    | false =>
      obtain ⟨x, hx, hp⟩ := h
      have hx' : x ∈ xs := by
        rcases List.mem_cons.mp hx with rfl | hx
        · rw [hy] at hp
          cases hp
        · exact hx
      obtain ⟨as, z, bs, rfl, hz, has⟩ := ih ⟨x, hx', hp⟩
      refine ⟨y :: as, z, bs, rfl, hz, ?_⟩
      rw [List.forall_mem_cons]
      exact ⟨hy, has⟩

theorem mem_split {p : α → Bool} {xs : List α} {x : α} (hx : x ∈ xs) (hp : p x = false) : ∃ l ∈ split p xs, x ∈ l := by
  induction xs with
  | nil => cases hx
  | cons y xs ih =>
    rw [split]
    split
    · rename_i hy
      rcases List.mem_cons.mp hx with rfl | hx
      · rw [hp] at hy
        cases hy
      · obtain ⟨l, hl, hxl⟩ := ih hx
        exact ⟨l, List.mem_cons_of_mem _ hl, hxl⟩
    cases hs : split p xs with
    | nil => exact absurd hs (split_ne_nil p xs)
    | cons l ls =>
      rcases List.mem_cons.mp hx with rfl | hx
      · exact ⟨x :: l, by simp, by simp⟩
      obtain ⟨l', hl', hxl⟩ := ih hx
      rw [hs] at hl'
      rcases List.mem_cons.mp hl' with rfl | hl'
      · exact ⟨y :: l', by simp, List.mem_cons_of_mem _ hxl⟩
      · exact ⟨l', by simp [hl'], hxl⟩

/-! ## Python's line breaks -/

/-- Where `str.splitlines` breaks a text. -/
def isLineBreak (c : Char) : Bool :=
  let n := c.toNat
  (10 ≤ n && n ≤ 13) || (28 ≤ n && n ≤ 30) || n = 133 || n = 8232 || n = 8233

def crlf : List Char → List Char
  | [] => []
  | [c] => [c]
  | c :: d :: cs => if c = '\r' ∧ d = '\n' then crlf (d :: cs) else c :: crlf (d :: cs)

def splitlines (cs : List Char) : List (List Char) := breakLines isLineBreak (crlf cs)

/-- The newline translation of a file opened as text. -/
def universal (cs : List Char) : List Char := (crlf cs).map fun c => if c = '\r' then '\n' else c

def isNewline (c : Char) : Bool := c = '\n'

variable {cs : List Char} {c d : Char} {p : α → Bool}

theorem crlf_of_no_cr (h : '\r' ∉ cs) : crlf cs = cs := by
  induction cs with
  | nil => rfl
  | cons c cs ih =>
    have hc : c ≠ '\r' := fun e => h (by simp [e])
    have hcs := ih fun hm => h (List.mem_cons_of_mem _ hm)
    cases cs with
    | nil => rfl
    | cons d cs => rw [crlf, if_neg (by simp [hc]), hcs]

theorem universal_of_no_cr (h : '\r' ∉ cs) : universal cs = cs := by
  rw [universal, crlf_of_no_cr h]
  refine (List.map_congr_left fun c hc => ?_).trans (List.map_id cs)
  have hne : c ≠ '\r' := fun e => h (e ▸ hc)
  simp [hne]

theorem splitlines_of_no_cr (h : '\r' ∉ cs) : splitlines cs = breakLines isLineBreak cs := by
  rw [splitlines, crlf_of_no_cr h]

/-! ## Stripping -/

def strip (cs : List Char) : List Char := (cs.dropWhile isPythonSpace).rdropWhile isPythonSpace

def stripText (s : String) : String := String.ofList (strip s.toList)

def isBlank (cs : List Char) : Bool := cs.all isPythonSpace

theorem strip_eq_self (hc : isPythonSpace c = false) (hd : isPythonSpace d = false) (cs : List Char) :
    strip (c :: cs ++ [d]) = c :: cs ++ [d] := by
  have hdrop : (c :: cs ++ [d]).dropWhile isPythonSpace = c :: cs ++ [d] := by
    rw [List.cons_append, List.dropWhile_cons_of_neg (by simp [hc])]
  rw [strip, hdrop, List.rdropWhile_concat_neg]
  simp [hd]

theorem strip_eq_nil : strip cs = [] ↔ isBlank cs = true := by
  simp only [strip, isBlank, List.rdropWhile_eq_nil_iff, List.all_eq_true]
  constructor
  · intro h c hc
    rw [← List.takeWhile_append_dropWhile (p := isPythonSpace) (l := cs)] at hc
    rcases List.mem_append.mp hc with hc | hc
    · exact (List.all_eq_true.mp List.all_takeWhile) c hc
    · exact h c hc
  · intro h c hc
    exact h c ((List.dropWhile_sublist isPythonSpace).subset hc)

theorem head_dropWhile_ne {ds : List Char} (h : cs.dropWhile isPythonSpace = c :: ds) : isPythonSpace c = false := by
  have hne : cs.dropWhile isPythonSpace ≠ [] := by
    rw [h]
    exact List.cons_ne_nil c ds
  have hd := List.head_dropWhile_not isPythonSpace hne
  simpa only [h, List.head_cons] using hd

theorem strip_idem (cs : List Char) : strip (strip cs) = strip cs := by
  have htail : ∀ ds : List Char, (ds.rdropWhile isPythonSpace).rdropWhile isPythonSpace = ds.rdropWhile isPythonSpace :=
    List.rdropWhile_idempotent isPythonSpace
  rw [strip]
  cases hd : strip cs with
  | nil => rfl
  | cons c ds =>
    have hc : isPythonSpace c = false := by
      have hprefix : strip cs <+: cs.dropWhile isPythonSpace := List.rdropWhile_prefix isPythonSpace _
      rw [hd] at hprefix
      obtain ⟨t, ht⟩ := hprefix
      exact head_dropWhile_ne ht.symm
    rw [List.dropWhile_cons_of_neg (by simp [hc]), ← hd]
    exact htail _

theorem strip_space_left (h : isPythonSpace c = true) (cs : List Char) : strip (c :: cs) = strip cs := by
  rw [strip, strip, List.dropWhile_cons_of_pos h]

theorem strip_space_right (h : isPythonSpace c = true) (cs : List Char) : strip (cs ++ [c]) = strip cs := by
  rw [strip, strip, List.dropWhile_append]
  split
  · rename_i hempty
    rw [List.isEmpty_iff.mp hempty, List.dropWhile_cons_of_pos h]
    rfl
  · rw [List.rdropWhile_concat_pos _ _ _ h]

theorem strip_sublist (cs : List Char) : (strip cs).Sublist cs :=
  (List.rdropWhile_prefix isPythonSpace _).sublist.trans (List.dropWhile_sublist isPythonSpace)

theorem rdropWhile_append_cons {p : α → Bool} {x : α} (h : p x = false) (xs ys : List α) :
    (xs ++ x :: ys).rdropWhile p = xs ++ x :: ys.rdropWhile p := by
  induction ys using List.reverseRecOn with
  | nil => rw [List.rdropWhile_concat_neg _ _ _ (by simp [h]), List.rdropWhile_nil]
  | append_singleton ys y ih =>
    rw [← List.cons_append, ← List.append_assoc, List.rdropWhile_concat, List.rdropWhile_concat]
    split
    · exact ih
    · simp

theorem strip_rdropWhile (cs : List Char) : strip (cs.rdropWhile isPythonSpace) = strip cs := by
  induction cs using List.reverseRecOn with
  | nil => rfl
  | append_singleton cs c ih =>
    rw [List.rdropWhile_concat]
    split
    · rename_i hc
      rw [ih, strip_space_right hc]
    · rfl

theorem strip_append_cons (hc : isPythonSpace c = false) (hd : isPythonSpace d = false) (cs ds : List Char) :
    strip (c :: cs ++ d :: ds) = c :: cs ++ d :: ds.rdropWhile isPythonSpace := by
  rw [strip, List.cons_append, List.dropWhile_cons_of_neg (by simp [hc]), ← List.cons_append, rdropWhile_append_cons hd]

theorem breakLines_pure : ∀ {xs : List α}, ∀ l ∈ breakLines p xs, ∀ x ∈ l, p x = false
  | [], l, hl, _, _ => by cases hl
  | y :: xs, l, hl, x, hx => by
    rw [breakLines] at hl
    split at hl
    · rcases List.mem_cons.mp hl with rfl | hl
      · cases hx
      · exact breakLines_pure l hl x hx
    rename_i hy
    cases hs : breakLines p xs with
    | nil =>
      rw [hs, consHead, List.mem_singleton] at hl
      rw [hl, List.mem_singleton] at hx
      rw [hx]
      simpa using hy
    | cons m ms =>
      rw [hs, consHead] at hl
      rcases List.mem_cons.mp hl with rfl | hl
      · rcases List.mem_cons.mp hx with rfl | hx
        · simpa using hy
        · exact breakLines_pure m (by rw [hs]; simp) x hx
      · exact breakLines_pure l (by rw [hs]; simp [hl]) x hx

theorem split_pure : ∀ {xs : List α}, ∀ l ∈ split p xs, ∀ x ∈ l, p x = false ∧ x ∈ xs
  | [], l, hl, x, hx => by
    rw [split, List.mem_singleton] at hl
    rw [hl] at hx
    cases hx
  | y :: xs, l, hl, x, hx => by
    rw [split] at hl
    split at hl
    · rcases List.mem_cons.mp hl with rfl | hl
      · cases hx
      · obtain ⟨hp, hm⟩ := split_pure l hl x hx
        exact ⟨hp, List.mem_cons_of_mem _ hm⟩
    rename_i hy
    cases hs : split p xs with
    | nil => exact absurd hs (split_ne_nil p xs)
    | cons m ms =>
      rw [hs, consHead] at hl
      rcases List.mem_cons.mp hl with rfl | hl
      · rcases List.mem_cons.mp hx with rfl | hx
        · exact ⟨by simpa using hy, by simp⟩
        · obtain ⟨hp, hm⟩ := split_pure m (by rw [hs]; simp) x hx
          exact ⟨hp, List.mem_cons_of_mem _ hm⟩
      · obtain ⟨hp, hm⟩ := split_pure l (by rw [hs]; simp [hl]) x hx
        exact ⟨hp, List.mem_cons_of_mem _ hm⟩

theorem intercalate_unlines (x : α) (ls : List (List α)) : [x].intercalate (ls ++ [[]]) = unlines x ls := by
  induction ls with
  | nil => rfl
  | cons l ls ih =>
    have hcons : [x].intercalate (l :: (ls ++ [[]])) = l ++ [x] ++ [x].intercalate (ls ++ [[]]) := by
      obtain ⟨m, ms, hms⟩ := List.exists_cons_of_ne_nil (l := ls ++ [[]]) (by simp)
      rw [hms]
      simp [List.intercalate_cons_cons]
    rw [List.cons_append, hcons, ih]
    rfl

/-! ## Finding a mark -/

def findFirst (pattern : List Char) : List Char → Option (List Char × List Char)
  | [] => if pattern = [] then some ([], []) else none
  | c :: cs =>
    if pattern.isPrefixOf (c :: cs) then some ([], (c :: cs).drop pattern.length)
    else (findFirst pattern cs).map fun r => (c :: r.1, r.2)

def Guarded (x y : Char) (cs : List Char) : Prop := ∀ as bs, cs = as ++ x :: bs → ∃ c ∈ bs.head?, c ≠ y

section
variable {x y : Char}

variable {cs : List Char} {c : Char}

theorem guarded_of_not_mem (h : x ∉ cs) : Guarded x y cs := by
  rintro as bs rfl
  exact absurd (List.mem_append_right as (List.mem_cons_self ..)) h

theorem guarded_cons (h : c ≠ x ∨ ∃ d ∈ cs.head?, d ≠ y) (hcs : Guarded x y cs) : Guarded x y (c :: cs) := by
  intro as bs heq
  cases as with
  | nil =>
    obtain ⟨rfl, rfl⟩ := List.cons.inj heq
    exact h.resolve_left fun hne => hne rfl
  | cons a as => exact hcs as bs (List.cons.inj heq).2

theorem Guarded.append {ds : List Char} (hc : Guarded x y cs) (hd : Guarded x y ds) : Guarded x y (cs ++ ds) := by
  intro as bs h
  rcases List.append_eq_append_iff.mp h with ⟨t, rfl, ht⟩ | ⟨t, ht, hts⟩
  · exact hd t bs ht
  cases t with
  | nil => exact hd [] bs hts.symm
  | cons a t =>
    obtain ⟨rfl, hbs⟩ := List.cons.inj hts
    obtain ⟨c, hhead, hne⟩ := hc as t ht
    refine ⟨c, ?_, hne⟩
    rw [hbs]
    cases t with
    | nil => cases hhead
    | cons b t => exact hhead

theorem findFirst_cons {pattern : List Char} (h : pattern.isPrefixOf (c :: cs) = false) :
    findFirst pattern (c :: cs) = (findFirst pattern cs).map fun r => (c :: r.1, r.2) := by
  rw [findFirst, h]
  rfl

theorem findFirst_guarded (ps : List Char) : ∀ {cs : List Char}, Guarded x y cs → ∀ rest,
    findFirst (x :: y :: ps) (cs ++ x :: y :: ps ++ rest) = some (cs, rest)
  | [], _, rest => by
    rw [List.nil_append, List.cons_append, findFirst, if_pos]
    · simp
    · exact List.isPrefixOf_iff_prefix.mpr (List.prefix_append (x :: y :: ps) rest)
  | c :: cs, h, rest => by
    have htail : Guarded x y cs := fun as bs hcs => h (c :: as) bs (by rw [hcs]; rfl)
    have hhead : (x :: y :: ps).isPrefixOf (c :: (cs ++ x :: y :: ps ++ rest)) = false := by
      by_cases hc : c = x
      · subst hc
        obtain ⟨d, hd, hne⟩ := h [] cs rfl
        obtain ⟨ds, rfl⟩ := List.head?_eq_some_iff.mp hd
        simp [List.isPrefixOf, Ne.symm hne]
      · simp [List.isPrefixOf, Ne.symm hc]
    rw [List.cons_append, List.cons_append, findFirst_cons hhead, findFirst_guarded ps htail rest]
    rfl

end

end Lines

end Lib

/-! ## Offsets of lines

`size` is how much room lines take with a mark behind each, so the lines after
the first `i` of a text start at `size (lines.take i)`. `ends` pairs each line
with the offset behind its mark.
-/

namespace Lib

namespace Lines

variable {α : Type}

def size (ls : List (List α)) : Nat := (ls.map fun l => l.length + 1).sum

def ends (start : Nat) : List (List α) → List (List α × Nat)
  | [] => []
  | l :: ls => (l, start + l.length + 1) :: ends (start + l.length + 1) ls

@[simp] theorem size_nil : size ([] : List (List α)) = 0 := rfl

@[simp] theorem size_cons (l : List α) (ls : List (List α)) : size (l :: ls) = l.length + 1 + size ls := by
  simp [size]

@[simp] theorem size_append (ls ms : List (List α)) : size (ls ++ ms) = size ls + size ms := by
  simp [size]

theorem length_unlines (x : α) (ls : List (List α)) : (unlines x ls).length = size ls := by
  induction ls with
  | nil => rfl
  | cons l ls ih =>
    rw [unlines, List.flatMap_cons, List.length_append, size_cons, List.length_append, List.length_singleton]
    rw [unlines] at ih
    rw [ih]

theorem drop_unlines (x : α) (ls : List (List α)) (i : Nat) : (unlines x ls).drop (size (ls.take i)) = unlines x (ls.drop i) := by
  have hsplit : unlines x ls = unlines x (ls.take i) ++ unlines x (ls.drop i) := by
    rw [← unlines_append, List.take_append_drop]
  rw [hsplit, ← length_unlines x, List.drop_left]

variable {ls : List (List α)}

theorem getLast?_unlines (x : α) (h : ls ≠ []) : (unlines x ls).getLast? = some x := by
  obtain ⟨ms, l, rfl⟩ : ∃ ms l, ls = ms ++ [l] := ⟨ls.dropLast, ls.getLast h, (List.dropLast_append_getLast h).symm⟩
  rw [unlines_append, unlines, unlines, List.flatMap_singleton, ← List.append_assoc, List.getLast?_append]
  rfl

theorem mark_before (x : α) {i : Nat} (h : 0 < size (ls.take i)) : (unlines x ls)[size (ls.take i) - 1]? = some x := by
  have hne : ls.take i ≠ [] := by
    intro he
    rw [he] at h
    exact absurd h (Nat.lt_irrefl 0)
  have hsplit : unlines x ls = unlines x (ls.take i) ++ unlines x (ls.drop i) := by
    rw [← unlines_append, List.take_append_drop]
  have hlast := getLast?_unlines x hne
  rw [List.getLast?_eq_getElem?, length_unlines] at hlast
  rw [hsplit, List.getElem?_append_left, hlast]
  rw [length_unlines]
  omega

end Lines

end Lib
