import AgentsRemember.Lib.Lines

/-!
# Lines with their marks

A text cut at its line breaks, each line with the break that ends it, so that
nothing is lost: `flatten_marked`. A carriage return is a break in any case and
goes with the newline behind it. Where a text has no carriage return, the lines
are the pieces of `split`.
-/

namespace Lib

namespace Lines

def consText (c : Char) : List (List Char × List Char) → List (List Char × List Char)
  | [] => [([c], [])]
  | e :: es => (c :: e.1, e.2) :: es

def marked (p : Char → Bool) : List Char → List (List Char × List Char)
  | [] => [([], [])]
  | [c] => if p c || c = '\r' then [([], [c]), ([], [])] else [([c], [])]
  | c :: d :: cs =>
    if c = '\r' ∧ d = '\n' then ([], [c, d]) :: marked p cs
    else if p c || c = '\r' then ([], [c]) :: marked p (d :: cs)
    else consText c (marked p (d :: cs))

def flatten (es : List (List Char × List Char)) : List Char := es.flatMap fun e => e.1 ++ e.2

attribute [local simp] consText marked

theorem flatten_cons (e : List Char × List Char) (es : List (List Char × List Char)) :
    flatten (e :: es) = e.1 ++ e.2 ++ flatten es := rfl

theorem flatten_consText (c : Char) (es : List (List Char × List Char)) : flatten (consText c es) = c :: flatten es := by
  cases es <;> rfl

theorem flatten_marked (p : Char → Bool) : ∀ cs, flatten (marked p cs) = cs
  | [] => rfl
  | [c] => by
    rw [marked]
    split <;> rfl
  | c :: d :: cs => by
    rw [marked]
    split
    · rw [flatten_cons, flatten_marked p cs]
      rfl
    split
    · rw [flatten_cons, flatten_marked p (d :: cs)]
      rfl
    · rw [flatten_consText, flatten_marked p (d :: cs)]

def readMark (m : List Char) : List Char := if '\r' ∈ m then ['\n'] else m

variable {c : Char} {p : Char → Bool} {es : List (List Char × List Char)} {α : Type} {g : Nat → List Char → List Char}
  {l : List Char}

theorem crlf_cons (h : c ≠ '\r') (cs : List Char) : crlf (c :: cs) = c :: crlf cs := by
  cases cs with
  | nil => rfl
  | cons d cs => rw [crlf, if_neg fun hc => h hc.1]

theorem universal_cons (h : c ≠ '\r') (cs : List Char) : universal (c :: cs) = c :: universal cs := by
  rw [universal, crlf_cons h, List.map_cons, if_neg h]
  rfl

theorem universal_crlf (cs : List Char) : universal ('\r' :: '\n' :: cs) = '\n' :: universal cs := by
  rw [universal, crlf, if_pos ⟨rfl, rfl⟩, crlf_cons (by decide), List.map_cons]
  rfl

theorem universal_cr {cs : List Char} (h : cs.head? ≠ some '\n') : universal ('\r' :: cs) = '\n' :: universal cs := by
  cases cs with
  | nil => rfl
  | cons d cs =>
    have hd : d ≠ '\n' := fun e => h (congrArg some e)
    rw [universal, crlf, if_neg fun hc => hd hc.2, List.map_cons]
    rfl

theorem marked_cons_break (h : p c = true) (hr : c ≠ '\r') (cs : List Char) :
    marked p (c :: cs) = ([], [c]) :: marked p cs := by
  cases cs with
  | nil => simp [marked, h]
  | cons d cs => simp [marked, h, hr]

theorem marked_cons_text (h : p c = false) (hr : c ≠ '\r') (cs : List Char) :
    marked p (c :: cs) = consText c (marked p cs) := by
  cases cs with
  | nil => simp [marked, h, hr, consText]
  | cons d cs => rw [marked, if_neg fun hc => hr hc.1, if_neg (by simp [h, hr])]

theorem map_consText {f : List Char → List Char} (c : Char) (h : es ≠ []) :
    (consText c es).map (fun e => (e.1, f e.2)) = consText c (es.map fun e => (e.1, f e.2)) := by
  cases es with
  | nil => exact absurd rfl h
  | cons e es => rfl

theorem marked_ne_nil (p : Char → Bool) (cs : List Char) : marked p cs ≠ [] := by
  cases cs with
  | nil => exact List.cons_ne_nil _ _
  | cons c cs =>
    cases cs with
    | nil => rw [marked]; split <;> exact List.cons_ne_nil _ _
    | cons d cs =>
      rw [marked]
      split
      · exact List.cons_ne_nil _ _
      split
      · exact List.cons_ne_nil _ _
      · cases marked p (d :: cs) <;> exact List.cons_ne_nil _ _

theorem marked_universal (hp : p '\n' = true) : ∀ cs,
    marked p (universal cs) = (marked p cs).map fun e => (e.1, readMark e.2)
  | [] => rfl
  | [c] => by
    by_cases hc : c = '\r'
    · subst hc
      have hu : universal ['\r'] = ['\n'] := rfl
      rw [hu, marked, marked, hp]
      simp [readMark]
    rw [universal_cons hc]
    have hu : universal [] = [] := rfl
    rw [hu, marked]
    split
    · rename_i h
      simp [readMark, Ne.symm hc]
    · rfl
  | c :: d :: cs => by
    by_cases hc : c = '\r'
    · subst hc
      by_cases hd : d = '\n'
      · subst hd
        rw [universal_crlf, marked_cons_break hp (by decide), marked, if_pos ⟨rfl, rfl⟩, marked_universal hp cs]
        rfl
      have hhead : (d :: cs).head? ≠ some '\n' := fun h => hd (Option.some.inj h)
      rw [universal_cr hhead, marked_cons_break hp (by decide), marked_universal hp (d :: cs), marked,
        if_neg fun h => hd h.2]
      simp [readMark]
    rw [universal_cons hc]
    cases hpc : p c with
    | true =>
      rw [marked_cons_break hpc hc, marked_cons_break hpc hc, marked_universal hp (d :: cs), List.map_cons]
      simp [readMark, Ne.symm hc]
    | false =>
      rw [marked_cons_text hpc hc, marked_cons_text hpc hc, marked_universal hp (d :: cs),
        map_consText c (marked_ne_nil p (d :: cs))]

theorem no_cr_universal (cs : List Char) : '\r' ∉ universal cs := by
  intro h
  obtain ⟨c, -, hc⟩ := List.mem_map.mp h
  split at hc
  · cases hc
  · rename_i hne
    exact hne hc

theorem fst_marked (p : Char → Bool) : ∀ {cs : List Char}, '\r' ∉ cs → (marked p cs).map Prod.fst = split p cs
  | [], _ => rfl
  | c :: cs, h => by
    have hc : c ≠ '\r' := fun e => h (by simp [e])
    have ih := fst_marked p fun hm => h (List.mem_cons_of_mem c hm)
    cases hp : p c with
    | true => rw [marked_cons_break hp hc, split, hp, List.map_cons, ih]; rfl
    | false =>
      rw [marked_cons_text hp hc, split, hp, ← ih]
      cases marked p cs <;> rfl

theorem fst_marked_universal (hp : p '\n' = true) (cs : List Char) :
    split p (universal cs) = (marked p cs).map Prod.fst := by
  rw [← fst_marked p (no_cr_universal cs), marked_universal hp, List.map_map]
  rfl

structure IsMarked (p : Char → Bool) (e : List Char × List Char) : Prop where
  line : ∀ c ∈ e.1, p c = false ∧ c ≠ '\r'
  mark : e.2 = [] ∨ e.2 = ['\r', '\n'] ∨ ∃ c, e.2 = [c] ∧ (p c = true ∨ c = '\r')

theorem isMarked_consText (hc : p c = false ∧ c ≠ '\r') (h : ∀ e ∈ es, IsMarked p e) :
    ∀ e ∈ consText c es, IsMarked p e := by
  cases es with
  | nil =>
    intro e he
    obtain rfl := List.mem_singleton.mp he
    exact ⟨fun d hd => List.mem_singleton.mp hd ▸ hc, .inl rfl⟩
  | cons f es =>
    rw [List.forall_mem_cons] at h
    intro e he
    rcases List.mem_cons.mp he with rfl | he
    · exact ⟨List.forall_mem_cons.mpr ⟨hc, h.1.line⟩, h.1.mark⟩
    · exact h.2 e he

theorem isMarked_marked (p : Char → Bool) : ∀ cs, ∀ e ∈ marked p cs, IsMarked p e
  | [] => by
    intro e he
    obtain rfl := List.mem_singleton.mp he
    exact ⟨nofun, .inl rfl⟩
  | [c] => by
    rw [marked]
    split
    · rename_i h
      rw [Bool.or_eq_true, decide_eq_true_eq] at h
      refine List.forall_mem_cons.mpr ⟨⟨nofun, .inr (.inr ⟨c, rfl, h⟩)⟩, List.forall_mem_cons.mpr ⟨⟨nofun, .inl rfl⟩, nofun⟩⟩
    rename_i h
    rw [Bool.or_eq_true, decide_eq_true_eq, not_or, Bool.not_eq_true] at h
    exact List.forall_mem_cons.mpr ⟨⟨List.forall_mem_cons.mpr ⟨h, nofun⟩, .inl rfl⟩, nofun⟩
  | c :: d :: cs => by
    rw [marked]
    split
    · rename_i h
      obtain ⟨rfl, rfl⟩ := h
      exact List.forall_mem_cons.mpr ⟨⟨nofun, .inr (.inl rfl)⟩, isMarked_marked p cs⟩
    split
    · rename_i h
      rw [Bool.or_eq_true, decide_eq_true_eq] at h
      exact List.forall_mem_cons.mpr ⟨⟨nofun, .inr (.inr ⟨c, rfl, h⟩)⟩, isMarked_marked p (d :: cs)⟩
    rename_i h
    rw [Bool.or_eq_true, decide_eq_true_eq, not_or, Bool.not_eq_true] at h
    exact isMarked_consText h (isMarked_marked p (d :: cs))

/-! ## Edits of the lines of a text

`patch` replaces disjoint spans of one line at once. A text that is split at its
newlines, edited line by line and joined again keeps everything else, also when
the edits were planned on lines cut at more breaks than the newline, as long as
no such break stands before an edited line: `join_edited`.
-/

structure Patch (α : Type) where
  start : Nat
  stop : Nat
  text : List α

def patch {α : Type} : List (Patch α) → List α → Option (List α)
  | [], l => some l
  | e :: es, l =>
    if e.start ≤ e.stop ∧ e.stop ≤ l.length then (patch es (l.take e.start)).map (· ++ e.text ++ l.drop e.stop) else none

theorem patch_cons {e : Patch α} {es : List (Patch α)} {l r : List α} (h : patch (e :: es) l = some r) :
    e.start ≤ e.stop ∧ e.stop ≤ l.length ∧ ∃ r', patch es (l.take e.start) = some r' ∧ r = r' ++ e.text ++ l.drop e.stop := by
  rw [patch] at h
  split at h
  · rename_i hin
    obtain ⟨r', hr', rfl⟩ := Option.map_eq_some_iff.mp h
    exact ⟨hin.1, hin.2, r', hr', rfl⟩
  · cases h

theorem count_patch [DecidableEq α] (x : α) : ∀ {es : List (Patch α)} {l r : List α}, patch es l = some r → x ∉ l →
    r.count x = (es.map fun e => e.text.count x).sum
  | [], l, r, h, hx => by
    obtain rfl := Option.some.inj h
    simpa [List.count_eq_zero] using hx
  | e :: es, l, r, h, hx => by
    obtain ⟨-, -, r', hr', rfl⟩ := patch_cons h
    have hbefore : x ∉ l.take e.start := fun hm => hx (List.mem_of_mem_take hm)
    have hafter : (l.drop e.stop).count x = 0 := List.count_eq_zero.mpr fun hm => hx (List.mem_of_mem_drop hm)
    rw [List.count_append, List.count_append, count_patch x hr' hbefore, hafter, List.map_cons, List.sum_cons]
    omega

/-! ## Splitting and joining -/

def consPrefix {α : Type} (xs : List α) : List (List α) → List (List α)
  | [] => [xs]
  | l :: ls => (xs ++ l) :: ls

theorem split_append_pure {p : α → Bool} {xs : List α} (h : ∀ x ∈ xs, p x = false) (ys : List α) :
    split p (xs ++ ys) = consPrefix xs (split p ys) := by
  induction xs with
  | nil => cases hs : split p ys with
    | nil => exact absurd hs (split_ne_nil p ys)
    | cons l ls => rw [List.nil_append, hs]; rfl
  | cons x xs ih =>
    rw [List.forall_mem_cons] at h
    rw [List.cons_append, split, h.1, ih h.2]
    cases split p ys <;> rfl

theorem intercalate_split (cs : List Char) : ['\n'].intercalate (split isNewline cs) = cs := by
  induction cs with
  | nil => rfl
  | cons c cs ih =>
    rw [split]
    split
    · rename_i hc
      rw [List.intercalate_cons_of_ne_nil (split_ne_nil _ cs), ih, of_decide_eq_true hc]
      rfl
    cases hs : split isNewline cs with
    | nil => exact absurd hs (split_ne_nil _ cs)
    | cons l ls =>
      rw [hs] at ih
      rw [consHead, ← ih]
      cases ls <;> simp [List.intercalate_cons_cons]

def Closed : List (List Char × List Char) → Prop
  | [] => False
  | [e] => e.2 = []
  | e :: f :: es => (∃ c, e.2 = [c]) ∧ Closed (f :: es)

theorem closed_consText (h : Closed es) : Closed (consText c es) := by
  cases es with
  | nil => exact h.elim
  | cons e es => cases es <;> exact h

theorem closed_marked (p : Char → Bool) : ∀ {cs : List Char}, '\r' ∉ cs → Closed (marked p cs)
  | [], _ => rfl
  | c :: cs, h => by
    have hc : c ≠ '\r' := fun e => h (by simp [e])
    have ih := closed_marked p fun hm => h (List.mem_cons_of_mem c hm)
    cases hp : p c with
    | true =>
      rw [marked_cons_break hp hc]
      cases hm : marked p cs with
      | nil => exact absurd hm (marked_ne_nil p cs)
      | cons e es =>
        rw [hm] at ih
        exact ⟨⟨c, rfl⟩, ih⟩
    | false =>
      rw [marked_cons_text hp hc]
      exact closed_consText ih

theorem closed_take : ∀ {es : List (List Char × List Char)} {m : Nat}, Closed es → m < es.length → ∀ e ∈ es.take m, ∃ c, e.2 = [c]
  | [], _, h, _ => h.elim
  | e :: es, 0, _, _ => nofun
  | [e], m + 1, _, hm => absurd hm (by simp)
  | e :: f :: es, m + 1, h, hm => by
    rw [List.take_succ_cons]
    exact List.forall_mem_cons.mpr ⟨h.1, closed_take h.2 (by simpa using hm)⟩

/-- The lines of a text edited one by one: `g` changes the lines that it touches, behind breaks that are newlines, and leaves
what stands behind a line that ends otherwise. -/
structure Edits (g : Nat → List Char → List Char) (es : List (List Char × List Char)) (touched : Nat → Prop) : Prop where
  untouched : ∀ i, ¬ touched i → ∀ l, g i l = l
  before : ∀ i, touched i → ∀ j < i, ∀ e, es[j]? = some e → e.2 = ['\n']
  behind : ∀ i e, es[i]? = some e → e.2 ≠ [] → e.2 ≠ ['\n'] → ∀ rest, g i (e.1 ++ rest) = g i e.1 ++ rest

theorem Edits.tail {e : List Char × List Char} {touched : Nat → Prop} (h : Edits g (e :: es) touched) :
    Edits (fun i => g (i + 1)) es fun i => touched (i + 1) :=
  ⟨fun i hi => h.untouched (i + 1) hi, fun i hi j hj f hf => h.before (i + 1) hi (j + 1) (by omega) f hf,
    fun i f hf => h.behind (i + 1) f hf⟩

theorem mapIdx_same (h : ∀ i l, g i l = l) (ls : List (List Char)) : ls.mapIdx g = ls := by
  refine List.ext_getElem? fun i => ?_
  rw [List.getElem?_mapIdx]
  cases ls[i]? with
  | none => rfl
  | some l => exact congrArg some (h i l)

theorem join_edited : ∀ {es : List (List Char × List Char)} {g : Nat → List Char → List Char} {touched : Nat → Prop},
    Closed es → (∀ e ∈ es, '\n' ∉ e.1) → Edits g es touched →
      ['\n'].intercalate ((split isNewline (flatten es)).mapIdx g) = flatten (es.mapIdx fun i e => (g i e.1, e.2))
  | [], _, _, h, _, _ => h.elim
  | [(l, m)], g, touched, h, hl, _ => by
    obtain rfl : m = [] := h
    have hpure : ∀ c ∈ l, isNewline c = false := fun c hc => by
      have hne : c ≠ '\n' := fun e => hl (l, []) (by simp) (e ▸ hc)
      simp [isNewline, hne]
    have hflat : flatten [(l, ([] : List Char))] = l := by simp [flatten]
    rw [hflat, split_of_all hpure]
    simp [flatten]
  | (l, m) :: f :: es, g, touched, ⟨⟨c, hm⟩, h⟩, hl, he => by
    obtain rfl : m = [c] := hm
    rw [List.forall_mem_cons] at hl
    have hpure : ∀ d ∈ l, isNewline d = false := fun d hd => by
      have hne : d ≠ '\n' := fun e => hl.1 (e ▸ hd)
      simp [isNewline, hne]
    have hflat : flatten ((l, [c]) :: f :: es) = l ++ c :: flatten (f :: es) := by rw [flatten_cons]; simp
    have hright : flatten (((l, [c]) :: f :: es).mapIdx fun i e => (g i e.1, e.2)) =
        g 0 l ++ [c] ++ flatten ((f :: es).mapIdx fun i e => (g (i + 1) e.1, e.2)) := by
      rw [List.mapIdx_cons]
      rfl
    rw [hflat, hright]
    by_cases hc : c = '\n'
    · subst hc
      rw [split_append isNewline (by decide), split_of_all hpure, List.singleton_append, List.mapIdx_cons,
        List.intercalate_cons_of_ne_nil (by simpa using split_ne_nil _ _), join_edited h hl.2 he.tail]
    have hnone : ∀ i, ¬ touched (i + 1) := by
      intro i hi
      have := he.before (i + 1) hi 0 (by omega) _ rfl
      exact hc (List.cons.inj this).1
    have hsplit : split isNewline (l ++ c :: flatten (f :: es)) = consPrefix (l ++ [c]) (split isNewline (flatten (f :: es))) := by
      rw [← split_append_pure, List.append_assoc, List.singleton_append]
      intro d hd
      rcases List.mem_append.mp hd with hd | hd
      · exact hpure d hd
      · rw [List.mem_singleton.mp hd]
        simp [isNewline, hc]
    have hrest := intercalate_split (flatten (f :: es))
    have htail : (f :: es).mapIdx (fun i e => (g (i + 1) e.1, e.2)) = f :: es := by
      refine List.ext_getElem? fun i => ?_
      rw [List.getElem?_mapIdx]
      cases (f :: es)[i]? with
      | none => rfl
      | some e => exact congrArg (fun l => some (l, e.2)) (he.tail.untouched i (hnone i) e.1)
    have hbehind := he.behind 0 (l, [c]) rfl (List.cons_ne_nil _ _) fun e => hc (List.cons.inj e).1
    rw [hsplit]
    cases hs : split isNewline (flatten (f :: es)) with
    | nil => exact absurd hs (split_ne_nil _ _)
    | cons w ws =>
      rw [hs] at hrest
      rw [consPrefix, List.mapIdx_cons, mapIdx_same fun i => he.tail.untouched i (hnone i), List.append_assoc, hbehind, htail, ← hrest]
      cases ws <;> simp [List.intercalate_cons_cons]

/-! ## Where a line starts -/

def offset (ls : List (List Char)) (m : Nat) : Nat := ((ls.take m).map fun l => l.length + 1).sum

theorem offset_succ (l : List Char) (ls : List (List Char)) (m : Nat) : offset (l :: ls) (m + 1) = l.length + 1 + offset ls m := by
  simp [offset]

theorem offset_lt {ls : List (List Char)} {m : Nat} (h : m < ls.length) : offset ls m < offset ls (m + 1) := by
  rw [offset, offset, List.take_add_one, List.getElem?_eq_getElem h, List.map_append, List.sum_append]
  simp only [Option.toList_some, List.map_cons, List.map_nil, List.sum_cons, List.sum_nil]
  omega

theorem split_flatten_cons (hl : '\n' ∉ l) (es : List (List Char × List Char)) :
    (c = '\n' ∧ split isNewline (flatten ((l, [c]) :: es)) = l :: split isNewline (flatten es)) ∨
      (c ≠ '\n' ∧ split isNewline (flatten ((l, [c]) :: es)) = consPrefix (l ++ [c]) (split isNewline (flatten es))) := by
  have hpure : ∀ d ∈ l, isNewline d = false := fun d hd => by
    have hne : d ≠ '\n' := fun e => hl (e ▸ hd)
    simp [isNewline, hne]
  have hflat : flatten ((l, [c]) :: es) = l ++ c :: flatten es := by rw [flatten_cons]; simp
  by_cases hc : c = '\n'
  · refine .inl ⟨hc, ?_⟩
    rw [hflat, hc, split_append isNewline (by decide), split_of_all hpure]
    rfl
  refine .inr ⟨hc, ?_⟩
  rw [hflat, ← split_append_pure, List.append_assoc, List.singleton_append]
  intro d hd
  rcases List.mem_append.mp hd with hd | hd
  · exact hpure d hd
  · rw [List.mem_singleton.mp hd]
    simp [isNewline, hc]

theorem split_last (hl : '\n' ∉ l) : split isNewline (flatten [(l, [])]) = [l] := by
  have hflat : flatten [(l, ([] : List Char))] = l := by simp [flatten]
  rw [hflat, split_of_all]
  intro d hd
  have hne : d ≠ '\n' := fun e => hl (e ▸ hd)
  simp [isNewline, hne]

theorem offset_le_split : ∀ {es : List (List Char × List Char)}, Closed es → (∀ e ∈ es, '\n' ∉ e.1) → ∀ m,
    m ≤ (split isNewline (flatten es)).length → offset (es.map Prod.fst) m ≤ offset (split isNewline (flatten es)) m
  | [], h, _, _, _ => h.elim
  | _, _, _, 0, _ => Nat.le_refl _
  | [(l, m')], h, hl, m + 1, _ => by
    obtain rfl : m' = [] := h
    rw [split_last (hl (l, []) (List.mem_singleton_self _))]
    exact Nat.le_refl _
  | (l, m') :: f :: es, ⟨⟨c, hm⟩, h⟩, hl, m + 1, hlen => by
    obtain rfl : m' = [c] := hm
    rw [List.forall_mem_cons] at hl
    have ih := offset_le_split h hl.2 m
    rcases split_flatten_cons (c := c) hl.1 (f :: es) with ⟨-, hs⟩ | ⟨-, hs⟩
    · rw [hs, List.length_cons] at hlen
      rw [hs, List.map_cons, offset_succ, offset_succ]
      exact Nat.add_le_add_left (ih (by omega)) _
    rw [hs] at hlen ⊢
    cases hw : split isNewline (flatten (f :: es)) with
    | nil => exact absurd hw (split_ne_nil _ _)
    | cons w ws =>
      rw [hw] at hlen ih
      rw [consPrefix, List.length_cons] at hlen
      rw [consPrefix, List.map_cons, offset_succ, offset_succ, List.length_append, List.length_append]
      have hle := ih (by rw [List.length_cons]; omega)
      have hlt := @offset_lt (w :: ws) m (by rw [List.length_cons]; omega)
      rw [offset_succ] at hlt
      simp only [List.length_singleton]
      omega

theorem offset_split_iff : ∀ {es : List (List Char × List Char)}, Closed es → (∀ e ∈ es, '\n' ∉ e.1) → ∀ m, m < es.length →
    ((m < (split isNewline (flatten es)).length ∧ offset (split isNewline (flatten es)) m = offset (es.map Prod.fst) m) ↔
      ∀ e ∈ es.take m, e.2 = ['\n'])
  | [], h, _, _, _ => h.elim
  | e :: es, _, _, 0, _ => by
    refine iff_of_true ⟨List.length_pos_of_ne_nil (split_ne_nil _ _), rfl⟩ ?_
    rw [List.take_zero]
    nofun
  | [e], _, _, m + 1, hm => absurd hm (by simp)
  | (l, m') :: f :: es, ⟨⟨c, hm⟩, h⟩, hl, m + 1, hlen => by
    obtain rfl : m' = [c] := hm
    rw [List.forall_mem_cons] at hl
    have ih := offset_split_iff h hl.2 m (by simpa using hlen)
    rw [List.take_succ_cons, List.forall_mem_cons]
    rcases split_flatten_cons (c := c) hl.1 (f :: es) with ⟨rfl, hs⟩ | ⟨hc, hs⟩
    · rw [hs, List.length_cons, List.map_cons, offset_succ, offset_succ, ← ih]
      simp
    refine iff_of_false ?_ fun hne => hc (List.cons.inj hne.1).1
    rintro ⟨hlt, heq⟩
    rw [hs] at hlt heq
    have hle := offset_le_split h hl.2 m
    cases hw : split isNewline (flatten (f :: es)) with
    | nil => exact absurd hw (split_ne_nil _ _)
    | cons w ws =>
      rw [hw] at hle hlt heq
      rw [consPrefix, List.length_cons] at hlt
      rw [consPrefix, List.map_cons, offset_succ, offset_succ, List.length_append] at heq
      have hle' := hle (by rw [List.length_cons]; omega)
      have hstrict := @offset_lt (w :: ws) m (by rw [List.length_cons]; omega)
      rw [offset_succ] at hstrict
      simp only [List.length_append, List.length_singleton] at heq
      omega

theorem line_split_iff : ∀ {es : List (List Char × List Char)}, Closed es → (∀ e ∈ es, '\n' ∉ e.1) → ∀ m,
    (∀ e ∈ es.take m, e.2 = ['\n']) → ∀ e, es[m]? = some e →
      ((split isNewline (flatten es))[m]? = some e.1 ↔ e.2 = [] ∨ e.2 = ['\n'])
  | [], h, _, _, _, _, _ => h.elim
  | [(l, m')], h, hl, 0, _, e, he => by
    obtain rfl : m' = [] := h
    obtain rfl := Option.some.inj he
    rw [split_last (hl (l, []) (List.mem_singleton_self _))]
    simp
  | [e], _, _, m + 1, _, f, hf => by cases hf
  | (l, m') :: f :: es, ⟨⟨c, hm⟩, h⟩, hl, 0, _, e, he => by
    obtain rfl : m' = [c] := hm
    obtain rfl := Option.some.inj he
    rw [List.forall_mem_cons] at hl
    rcases split_flatten_cons (c := c) hl.1 (f :: es) with ⟨rfl, hs⟩ | ⟨hc, hs⟩
    · rw [hs]
      simp
    rw [hs]
    refine iff_of_false (fun heq => ?_) (by simp [hc])
    cases hw : split isNewline (flatten (f :: es)) with
    | nil => exact absurd hw (split_ne_nil _ _)
    | cons w ws =>
      rw [hw, consPrefix, List.getElem?_cons_zero] at heq
      have hlen := congrArg List.length (Option.some.inj heq)
      simp only [List.length_append, List.length_singleton] at hlen
      omega
  | (l, m') :: f :: es, ⟨⟨c, hm⟩, h⟩, hl, m + 1, hbefore, e, he => by
    obtain rfl : m' = [c] := hm
    rw [List.forall_mem_cons] at hl
    rw [List.take_succ_cons, List.forall_mem_cons] at hbefore
    obtain rfl : c = '\n' := (List.cons.inj hbefore.1).1
    rcases split_flatten_cons (c := '\n') hl.1 (f :: es) with ⟨-, hs⟩ | ⟨hc, -⟩
    · rw [hs, List.getElem?_cons_succ]
      exact line_split_iff h hl.2 m hbefore.2 e he
    · exact absurd rfl hc

/-! ## Line by line -/

theorem crlf_append_newline (ys : List Char) : ∀ xs : List Char, crlf (xs ++ '\n' :: ys) = crlf (xs ++ ['\n']) ++ crlf ys
  | [] => crlf_cons (by decide) ys
  | [c] => by
    have hone := crlf_append_newline ys []
    rw [List.nil_append, List.nil_append] at hone
    rw [List.singleton_append, List.singleton_append, crlf, crlf, hone]
    split <;> rfl
  | c :: d :: xs => by
    have ih := crlf_append_newline ys (d :: xs)
    rw [List.cons_append, List.cons_append] at ih
    rw [List.cons_append, List.cons_append, List.cons_append, List.cons_append, crlf, crlf, ih]
    split <;> rfl

theorem crlf_ends : ∀ xs : List Char, ∃ us, crlf (xs ++ ['\n']) = us ++ ['\n']
  | [] => ⟨[], rfl⟩
  | [c] => by
    rw [List.singleton_append, crlf]
    split
    · exact ⟨[], rfl⟩
    · exact ⟨[c], rfl⟩
  | c :: d :: xs => by
    obtain ⟨us, hus⟩ := crlf_ends (d :: xs)
    rw [List.cons_append] at hus
    rw [List.cons_append, List.cons_append, crlf, hus]
    split
    · exact ⟨us, rfl⟩
    · exact ⟨c :: us, rfl⟩

theorem universal_append_newline (xs ys : List Char) : universal (xs ++ '\n' :: ys) = universal (xs ++ ['\n']) ++ universal ys := by
  rw [universal, crlf_append_newline, List.map_append]
  rfl

def readLines (text : List Char) : List (List Char) := splitlines (universal text)

theorem readLines_eq (text : List Char) : readLines text = breakLines isLineBreak (universal text) :=
  splitlines_of_no_cr (no_cr_universal text)

def pieces (line : List Char) : List (List Char) := readLines (line ++ ['\n'])

theorem universal_ends (xs : List Char) : ∃ us, universal (xs ++ ['\n']) = us ++ ['\n'] := by
  obtain ⟨us, hus⟩ := crlf_ends xs
  exact ⟨us.map fun c => if c = '\r' then '\n' else c, by rw [universal, hus, List.map_append]; rfl⟩

theorem readLines_append (line text : List Char) : readLines (line ++ '\n' :: text) = pieces line ++ readLines text := by
  obtain ⟨us, hus⟩ := universal_ends line
  rw [pieces, readLines_eq, readLines_eq, readLines_eq, universal_append_newline, hus, List.append_assoc, List.singleton_append,
    breakLines_append _ (by decide), breakLines_append _ (by decide), breakLines, List.append_nil]

theorem readLines_unlines : ∀ lines : List (List Char), readLines (unlines '\n' lines) = lines.flatMap pieces
  | [] => rfl
  | line :: lines => by
    have ih := readLines_unlines lines
    rw [unlines] at ih
    rw [unlines, List.flatMap_cons, List.append_assoc, List.singleton_append, readLines_append, ih, List.flatMap_cons]

theorem pieces_append {xs : List Char} (h : ∀ x ∈ xs, isLineBreak x = false) (line : List Char) :
    pieces (xs ++ line) = consPrefix xs (pieces line) := by
  obtain ⟨us, hus⟩ := universal_ends line
  have hread : universal (xs ++ (line ++ ['\n'])) = xs ++ (us ++ ['\n']) := by
    rw [← hus]
    induction xs with
    | nil => rfl
    | cons x xs ih =>
      rw [List.forall_mem_cons] at h
      have hx : x ≠ '\r' := fun e => absurd (e ▸ h.1) (by decide)
      rw [List.cons_append, List.cons_append, universal_cons hx, ih h.2]
  rw [pieces, pieces, readLines_eq, readLines_eq, List.append_assoc, hread, hus, ← List.append_assoc,
    breakLines_append _ (by decide), breakLines_append _ (by decide), split_append_pure h]
  simp [breakLines]

theorem pieces_of_pure {line : List Char} (h : ∀ x ∈ line, isLineBreak x = false) : pieces line = [line] := by
  have happ := pieces_append h []
  rw [List.append_nil] at happ
  rw [happ]
  simp [pieces, readLines, universal, crlf, splitlines, breakLines, consPrefix, isLineBreak]

theorem pieces_ne_nil (line : List Char) : pieces line ≠ [] := by
  obtain ⟨us, hus⟩ := universal_ends line
  rw [pieces, readLines_eq, hus, breakLines_append _ (by decide), breakLines, List.append_nil]
  exact split_ne_nil isLineBreak us

end Lines

end Lib
