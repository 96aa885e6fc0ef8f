import AgentsRemember.Citations.SourceText

/-!
# Quotes in collapsed words

A match of a quote lies in the words from its first mark to its last, and these
are words of the lines that the match names. What the search takes from the
words of a file or of a comment block, the lines themselves hold.
-/

namespace AgentsRemember.Citations

open Lib Lib.Lines Lib.Tokens Lib.Words

/-! ## Marks -/

def texts (ws : List SourceWord) : List (List Char) := ws.map (·.text)

theorem texts_cons (w : SourceWord) (ws : List SourceWord) : texts (w :: ws) = w.text :: texts ws := rfl

theorem texts_append (us vs : List SourceWord) : texts (us ++ vs) = texts us ++ texts vs := List.map_append

def markOf (at_ : Nat) (us : List SourceWord) (w : SourceWord) : WordMark :=
  ⟨at_ + width (texts us), at_ + width (texts us) + w.text.length, w.line, w.byte, w.text⟩

theorem markOf_cons (at_ : Nat) (u : SourceWord) (us : List SourceWord) (w : SourceWord) :
    markOf (at_ + u.text.length + 1) us w = markOf at_ (u :: us) w := by
  have hwidth : at_ + u.text.length + 1 + width (texts us) = at_ + width (texts (u :: us)) := by
    rw [texts_cons, width_cons]
    omega
  rw [markOf, markOf, hwidth]

attribute [local simp] marksFrom

theorem getElem?_marksFrom : ∀ {ws : List SourceWord} {at_ i : Nat} {m : WordMark}, (marksFrom at_ ws)[i]? = some m →
    ∃ us w vs, ws = us ++ w :: vs ∧ us.length = i ∧ m = markOf at_ us w
  | [], _, _, _, h => by cases h
  | w :: ws, at_, 0, m, h => by
    obtain rfl := Option.some.inj h
    exact ⟨[], w, ws, rfl, rfl, rfl⟩
  | w :: ws, at_, i + 1, m, h => by
    rw [marksFrom, List.getElem?_cons_succ] at h
    obtain ⟨us, v, vs, rfl, hlen, rfl⟩ := getElem?_marksFrom h
    exact ⟨w :: us, v, vs, rfl, by rw [List.length_cons, hlen], markOf_cons at_ w us v⟩

theorem marksFrom_getElem? : ∀ {us : List SourceWord} {w : SourceWord} {vs : List SourceWord} {at_ : Nat},
    (marksFrom at_ (us ++ w :: vs))[us.length]? = some (markOf at_ us w)
  | [], w, vs, at_ => rfl
  | u :: us, w, vs, at_ => by
    rw [List.cons_append, marksFrom, List.length_cons, List.getElem?_cons_succ, marksFrom_getElem?, markOf_cons]

theorem length_marksFrom : ∀ {ws : List SourceWord} {at_ : Nat}, (marksFrom at_ ws).length = ws.length
  | [], _ => rfl
  | w :: ws, at_ => by rw [marksFrom, List.length_cons, List.length_cons, length_marksFrom]

theorem width_append (us vs : List (List Char)) : width (us ++ vs) = width us + width vs := by
  simp [width]

theorem mem_placesOf {target : List Char} : ∀ {cs : List Char} {at_ start : Nat}, start ∈ placesOf target at_ cs →
    ∃ pre post, cs = pre ++ target ++ post ∧ start = at_ + pre.length
  | [], _, _, h => by cases h
  | c :: cs, at_, start, h => by
    have hrest : start ∈ placesOf target (at_ + 1) cs → ∃ pre post, c :: cs = pre ++ target ++ post ∧ start = at_ + pre.length := by
      intro h
      obtain ⟨pre, post, rfl, rfl⟩ := mem_placesOf h
      exact ⟨c :: pre, post, rfl, by rw [List.length_cons]; omega⟩
    rw [placesOf] at h
    split at h
    · rename_i hp
      obtain ⟨post, hpost⟩ := List.isPrefixOf_iff_prefix.mp hp
      rcases List.mem_cons.mp h with rfl | h
      · exact ⟨[], post, hpost.symm, rfl⟩
      · exact hrest h
    · exact hrest h

theorem texts_rowWords (row : Row) : texts (rowWords row) = words row.text := by
  rw [texts, rowWords, List.map_map]
  rfl

theorem line_rowWords (row : Row) : ∀ w ∈ rowWords row, w.line = row.line := by
  intro w hw
  obtain ⟨t, -, rfl⟩ := List.mem_map.mp hw
  rfl

theorem texts_flatMap (rows : List Row) : texts (rows.flatMap rowWords) = rows.flatMap fun r => words r.text := by
  rw [texts, List.map_flatMap]
  exact List.flatMap_congr fun r _ => texts_rowWords r

end AgentsRemember.Citations
