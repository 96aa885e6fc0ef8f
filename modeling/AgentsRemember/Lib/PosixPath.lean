import AgentsRemember.Lib.Lines

/-!
# Pure POSIX paths

A path is an anchor and a list of components that are no dot, not empty and
hold no slash, as `pathlib` keeps it. Two leading slashes are an anchor of their
own; more of them are one.
-/

namespace Lib

inductive Anchor
  | relative
  | root
  | doubleRoot
  deriving DecidableEq

def Anchor.chars : Anchor → List Char
  | .relative => []
  | .root => ['/']
  | .doubleRoot => ['/', '/']

def IsComponent (part : List Char) : Prop := part ≠ [] ∧ part ≠ ['.'] ∧ '/' ∉ part

instance (part : List Char) : Decidable (IsComponent part) := inferInstanceAs (Decidable (_ ∧ _ ∧ _))

@[ext] structure PosixPath where
  anchor : Anchor
  parts : List (List Char)
  valid : ∀ part ∈ parts, IsComponent part
  deriving DecidableEq

namespace PosixPath

open Lines

def isSlash (c : Char) : Bool := c = '/'

def splitroot : List Char → Anchor × List Char
  | '/' :: '/' :: '/' :: rest => (.root, '/' :: '/' :: rest)
  | '/' :: '/' :: rest => (.doubleRoot, rest)
  | '/' :: rest => (.root, rest)
  | rest => (.relative, rest)

def components (rel : List Char) : List (List Char) := (split isSlash rel).filter fun x => decide (x ≠ [] ∧ x ≠ ['.'])

theorem components_valid (rel : List Char) : ∀ part ∈ components rel, IsComponent part := by
  intro part h
  rw [components, List.mem_filter, decide_eq_true_eq] at h
  refine ⟨h.2.1, h.2.2, fun hslash => ?_⟩
  have hpure := (split_pure part h.1 '/' hslash).1
  exact absurd hpure (by decide)

theorem valid_append (p q : PosixPath) : ∀ part ∈ p.parts ++ q.parts, IsComponent part :=
  List.forall_mem_append.mpr ⟨p.valid, q.valid⟩

def ofText (text : String) : PosixPath :=
  let r := splitroot text.toList
  ⟨r.1, components r.2, components_valid r.2⟩

def asPosix (p : PosixPath) : String :=
  if p.anchor = .relative ∧ p.parts = [] then "." else String.ofList (p.anchor.chars ++ ['/'].intercalate p.parts)

/-! ## Reading a path back -/

theorem split_intercalate {α : Type} {q : α → Bool} {x : α} (hx : q x = true) : ∀ {ls : List (List α)}, ls ≠ [] →
    (∀ l ∈ ls, ∀ y ∈ l, q y = false) → split q ([x].intercalate ls) = ls
  | [], h, _ => absurd rfl h
  | [l], _, hl => by
    rw [List.intercalate_singleton, split_of_all (hl l (by simp))]
  | l :: m :: ls, _, hl => by
    rw [List.forall_mem_cons] at hl
    rw [List.intercalate_cons_cons, List.append_assoc, List.singleton_append, split_append q hx, split_of_all hl.1,
      split_intercalate hx (by simp) hl.2]
    rfl

variable {ps : List (List Char)}

theorem components_intercalate (h : ∀ part ∈ ps, IsComponent part) : components (['/'].intercalate ps) = ps := by
  cases ps with
  | nil => rfl
  | cons p ps =>
    have hpure : ∀ l ∈ p :: ps, ∀ y ∈ l, isSlash y = false := by
      intro l hl y hy
      have hne : y ≠ '/' := fun e => (h l hl).2.2 (e ▸ hy)
      simp [isSlash, hne]
    rw [components, split_intercalate (by decide) (List.cons_ne_nil p ps) hpure]
    refine List.filter_eq_self.mpr fun part hpart => ?_
    exact decide_eq_true ⟨(h part hpart).1, (h part hpart).2.1⟩

theorem head_intercalate (h : ∀ part ∈ ps, IsComponent part) : ∀ c ∈ (['/'].intercalate ps).head?, c ≠ '/' := by
  cases ps with
  | nil => simp
  | cons p ps =>
    obtain ⟨hne, -, hslash⟩ := h p (by simp)
    obtain ⟨c, cs, rfl⟩ := List.exists_cons_of_ne_nil hne
    have hhead : (['/'].intercalate ((c :: cs) :: ps)).head? = some c := by
      cases ps <;> simp [List.intercalate_cons_cons]
    intro d hd
    rw [hhead, Option.mem_some_iff] at hd
    rintro rfl
    exact hslash (by simp [hd])

theorem splitroot_append (a : Anchor) {rel : List Char} (h : ∀ c ∈ rel.head?, c ≠ '/') :
    splitroot (a.chars ++ rel) = (a, rel) := by
  cases rel with
  | nil => cases a <;> rfl
  | cons c cs =>
    have hc : c ≠ '/' := h c rfl
    cases a <;> simp [Anchor.chars, splitroot, hc]

theorem ofText_dot : ofText "." = ⟨.relative, [], List.forall_mem_nil _⟩ := by decide

theorem ofText_asPosix (p : PosixPath) : ofText p.asPosix = p := by
  obtain ⟨a, ps, h⟩ := p
  by_cases hdot : a = .relative ∧ ps = []
  · obtain ⟨rfl, rfl⟩ := hdot
    have hdot : asPosix ⟨.relative, [], h⟩ = "." := if_pos ⟨rfl, rfl⟩
    rw [hdot, ofText_dot]
  · have hsplit := splitroot_append a (head_intercalate h)
    simp only [ofText, asPosix, hdot, if_false, String.toList_ofList, hsplit, components_intercalate h]

theorem asPosix_ne_empty (p : PosixPath) : p.asPosix ≠ "" := by
  obtain ⟨a, ps, h⟩ := p
  rw [asPosix]
  split
  · decide
  rename_i hdot
  intro he
  have hchars : a.chars ++ ['/'].intercalate ps = [] := by
    have := congrArg String.toList he
    rwa [String.toList_ofList] at this
  obtain ⟨ha, hps⟩ := List.append_eq_nil_iff.mp hchars
  have harel : a = .relative := by
    cases a with
    | relative => rfl
    | root => cases ha
    | doubleRoot => cases ha
  cases ps with
  | nil => exact hdot ⟨harel, rfl⟩
  | cons p ps =>
    have hp := (h p (by simp)).1
    cases ps with
    | nil =>
      rw [List.intercalate_singleton] at hps
      exact hp hps
    | cons q ps =>
      rw [List.intercalate_cons_cons, List.append_assoc] at hps
      exact hp (List.append_eq_nil_iff.mp hps).1

end PosixPath

end Lib
