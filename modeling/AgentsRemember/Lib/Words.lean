import AgentsRemember.Lib.Lines

/-!
# Tokens of a text

A scan from left to right takes, at each character that may start a token, as
many characters as may stand in one. Words are the case where every character
that is no space does both. A token stands whole where neither neighbour could
belong to it, and every name that stands whole is a token.
-/

namespace Lib

namespace Tokens

open Lines

variable {α : Type}

def tokens (start part : α → Bool) : Nat → Nat → List α → List (Nat × List α)
  | _, _, [] => []
  | 0, pos, c :: cs =>
    if start c then (pos, c :: cs.takeWhile part) :: tokens start part (cs.takeWhile part).length (pos + 1) cs
    else tokens start part 0 (pos + 1) cs
  | skip + 1, pos, _ :: cs => tokens start part skip (pos + 1) cs

def tokenTexts (start part : α → Bool) (cs : List α) : List (List α) := (tokens start part 0 0 cs).map Prod.snd

section
variable {start part : α → Bool}

attribute [local simp] tokens

theorem tokens_skip : ∀ (skip pos : Nat) (cs : List α),
    tokens start part skip pos cs = tokens start part 0 (pos + skip) (cs.drop skip)
  | 0, pos, cs => rfl
  | skip + 1, pos, [] => rfl
  | skip + 1, pos, c :: cs => by
    rw [tokens, tokens_skip skip (pos + 1) cs, List.drop_succ_cons, Nat.add_right_comm, Nat.add_assoc]

theorem map_snd_tokens (pos pos' : Nat) : ∀ (skip : Nat) (cs : List α),
    (tokens start part skip pos cs).map Prod.snd = (tokens start part skip pos' cs).map Prod.snd := by
  intro skip cs
  induction cs generalizing skip pos pos' with
  | nil => rfl
  | cons c cs ih =>
    cases skip with
    | zero =>
      rw [tokens, tokens]
      split
      · rw [List.map_cons, List.map_cons, ih (pos + 1) (pos' + 1)]
      · exact ih (pos + 1) (pos' + 1) 0
    | succ skip => exact ih (pos + 1) (pos' + 1) skip

theorem mem_tokens : ∀ {skip pos : Nat} {cs : List α} {t : Nat × List α}, t ∈ tokens start part skip pos cs →
    ∃ c rest, t.2 = c :: rest ∧ start c = true ∧ ∀ d ∈ rest, part d = true
  | _, _, [], t, h => by cases h
  | 0, pos, c :: cs, t, h => by
    rw [tokens] at h
    split at h
    · rename_i hc
      rcases List.mem_cons.mp h with rfl | h
      · exact ⟨c, cs.takeWhile part, rfl, hc, fun d hd => List.mem_takeWhile_imp hd⟩
      · exact mem_tokens h
    · exact mem_tokens h
  | skip + 1, pos, c :: cs, t, h => by
    rw [tokens] at h
    exact mem_tokens h

theorem drop_takeWhile (cs : List α) : cs.drop (cs.takeWhile part).length = cs.dropWhile part := by
  have hsplit := List.takeWhile_append_dropWhile (p := part) (l := cs)
  conv_lhs => rw [← hsplit]
  rw [List.drop_append_of_le_length (by simp), List.drop_eq_nil_of_le (by simp), List.nil_append]

variable {c : α}

theorem tokenTexts_start (h : start c = true) (cs : List α) :
    tokenTexts start part (c :: cs) = (c :: cs.takeWhile part) :: tokenTexts start part (cs.dropWhile part) := by
  rw [tokenTexts, tokens, if_pos h, List.map_cons, tokens_skip, drop_takeWhile, map_snd_tokens _ 0]
  rfl

theorem tokenTexts_skip (h : start c = false) (cs : List α) :
    tokenTexts start part (c :: cs) = tokenTexts start part cs := by
  rw [tokenTexts, tokens, if_neg (by simp [h]), map_snd_tokens _ 0]
  rfl

end

section
variable [BEq α] [LawfulBEq α] {part : α → Bool} {name : List α}

variable {start : α → Bool}

end

end Tokens

end Lib

/-! ## Words of a text

A text is collapsed by joining its words with single spaces. What a collapsed
text holds between two characters that are no spaces lies in the words from the
one to the other.
-/

namespace Lib

namespace Words

open Lines Tokens

def isWordChar (c : Char) : Bool := !isPythonSpace c

def words (cs : List Char) : List (List Char) := tokenTexts isWordChar isWordChar cs

def joinWords (ws : List (List Char)) : List Char := [' '].intercalate ws

def normalised (cs : List Char) : List Char := joinWords (words cs)

variable {cs : List Char}

theorem mem_words {w : List Char} (h : w ∈ words cs) : w ≠ [] ∧ ∀ c ∈ w, isWordChar c = true := by
  obtain ⟨t, ht, rfl⟩ := List.mem_map.mp h
  obtain ⟨c, rest, heq, hc, hrest⟩ := mem_tokens ht
  rw [heq]
  refine ⟨List.cons_ne_nil c rest, ?_⟩
  intro d hd
  rcases List.mem_cons.mp hd with rfl | hd
  · exact hc
  · exact hrest d hd

/-! ## Where words stand -/

def width (us : List (List Char)) : Nat := (us.map fun u => u.length + 1).sum

theorem width_cons (u : List Char) (us : List (List Char)) : width (u :: us) = u.length + 1 + width us := by
  simp [width]

theorem width_words (cs : List Char) : width (words cs) ≤ cs.length + 1 := by
  induction hn : cs.length using Nat.strongRecOn generalizing cs with
  | _ n ih =>
    cases cs with
    | nil => exact Nat.zero_le _
    | cons c cs =>
      rw [List.length_cons] at hn
      cases hc : isWordChar c with
      | false =>
        rw [words, tokenTexts_skip hc]
        exact (ih cs.length (by omega) cs rfl).trans (by omega)
      | true =>
        rw [words, tokenTexts_start hc, width_cons, List.length_cons]
        have hlen := congrArg List.length (List.takeWhile_append_dropWhile (p := isWordChar) (l := cs))
        rw [List.length_append] at hlen
        cases hdrop : cs.dropWhile isWordChar with
        | nil =>
          rw [hdrop, List.length_nil] at hlen
          have hnil : width (tokenTexts isWordChar isWordChar []) = 0 := rfl
          omega
        | cons d rest =>
          have hd : isWordChar d = false := by
            have hhead := List.head_dropWhile_not isWordChar (l := cs) (by rw [hdrop]; exact List.cons_ne_nil d rest)
            simpa [hdrop] using hhead
          rw [hdrop, List.length_cons] at hlen
          rw [tokenTexts_skip hd]
          have hrest : width (tokenTexts isWordChar isWordChar rest) ≤ rest.length + 1 := ih rest.length (by omega) rest rfl
          omega

variable {ms : List (List Char)}

theorem joinWords_append {us : List (List Char)} (h : ms ≠ []) :
    joinWords (us ++ ms) = us.flatMap (· ++ [' ']) ++ joinWords ms := by
  induction us with
  | nil => rfl
  | cons u us ih =>
    have hne : us ++ ms ≠ [] := List.append_ne_nil_of_right_ne_nil us h
    rw [List.cons_append, joinWords, List.intercalate_cons_of_ne_nil hne, List.flatMap_cons]
    rw [joinWords] at ih
    rw [ih, List.append_assoc, List.append_assoc, List.append_assoc]

theorem prefix_joinWords {vs : List (List Char)} (h : ms ≠ []) : ∃ bs, joinWords (ms ++ vs) = joinWords ms ++ bs := by
  cases vs with
  | nil => exact ⟨[], by simp⟩
  | cons v vs =>
    rw [joinWords_append (List.cons_ne_nil v vs)]
    induction ms with
    | nil => exact absurd rfl h
    | cons m ms ih =>
      cases ms with
      | nil => exact ⟨' ' :: joinWords (v :: vs), by simp [joinWords]⟩
      | cons n ms =>
        obtain ⟨bs, hbs⟩ := ih (List.cons_ne_nil n ms)
        refine ⟨bs, ?_⟩
        rw [List.flatMap_cons, List.append_assoc, hbs, joinWords, joinWords, List.intercalate_cons_cons, List.append_assoc, List.append_assoc,
          List.append_assoc]

theorem length_flatMap_space (us : List (List Char)) : (us.flatMap (· ++ [' '])).length = width us := by
  induction us with
  | nil => rfl
  | cons u us ih => rw [List.flatMap_cons, List.length_append, ih, width_cons, List.length_append, List.length_singleton]

theorem normalised_ends (h : normalised cs ≠ []) :
    (∃ c t, normalised cs = c :: t ∧ isWordChar c = true) ∧ ∃ t d, normalised cs = t ++ [d] ∧ isWordChar d = true := by
  have hws : ∀ w ∈ words cs, w ≠ [] ∧ ∀ c ∈ w, isWordChar c = true := fun w hw => mem_words hw
  have hne : words cs ≠ [] := by
    intro hnil
    exact h (by rw [normalised, hnil]; rfl)
  constructor
  · obtain ⟨w, ws, heq⟩ := List.exists_cons_of_ne_nil hne
    rw [heq] at hws
    obtain ⟨hw, hall⟩ := hws w List.mem_cons_self
    obtain ⟨c, rest, rfl⟩ := List.exists_cons_of_ne_nil hw
    obtain ⟨bs, hbs⟩ := @prefix_joinWords [c :: rest] ws (List.cons_ne_nil _ _)
    have hone : joinWords [c :: rest] = c :: rest := List.intercalate_singleton
    rw [hone] at hbs
    exact ⟨c, rest ++ bs, by rw [normalised, heq]; exact hbs, hall c List.mem_cons_self⟩
  obtain ⟨ws, w, heq⟩ := (List.eq_nil_or_concat (words cs)).resolve_left hne
  rw [List.concat_eq_append] at heq
  rw [heq] at hws
  obtain ⟨hw, hall⟩ := hws w (List.mem_append_right ws (List.mem_singleton_self w))
  obtain ⟨t, d, rfl⟩ := (List.eq_nil_or_concat w).resolve_left hw
  rw [List.concat_eq_append] at heq hall
  have hone : joinWords [t ++ [d]] = t ++ [d] := List.intercalate_singleton
  refine ⟨ws.flatMap (· ++ [' ']) ++ t, d, ?_, hall d (by simp)⟩
  rw [normalised, heq, joinWords_append (List.cons_ne_nil _ _), hone, List.append_assoc]

theorem exists_word : ∀ {ws : List (List Char)} {pre : List Char} {c : Char} {post : List Char}, c ≠ ' ' →
    joinWords ws = pre ++ c :: post → ∃ us w vs, ws = us ++ w :: vs ∧ width us ≤ pre.length ∧ pre.length < width us + w.length
  | [], pre, c, post, _, h => by cases pre <;> cases h
  | [w], pre, c, post, _, h => by
    refine ⟨[], w, [], rfl, Nat.zero_le _, ?_⟩
    have hlen := congrArg List.length h
    rw [joinWords, List.intercalate_singleton, List.length_append, List.length_cons] at hlen
    show pre.length < 0 + w.length
    omega
  | w :: x :: ws, pre, c, post, hc, h => by
    rw [joinWords, List.intercalate_cons_cons, List.append_assoc, List.singleton_append] at h
    rcases List.append_eq_append_iff.mp h with ⟨t, rfl, ht⟩ | ⟨t, rfl, ht⟩
    · cases t with
      | nil =>
        have : c = ' ' := (List.cons.inj ht).1.symm
        exact absurd this hc
      | cons d t =>
        obtain ⟨rfl, htail⟩ := List.cons.inj ht
        have hrest : joinWords (x :: ws) = t ++ c :: post := htail
        obtain ⟨us, v, vs, hws, hle, hlt⟩ := exists_word hc hrest
        refine ⟨w :: us, v, vs, by rw [hws]; rfl, ?_, ?_⟩
        · rw [width_cons, List.length_append, List.length_cons]
          omega
        · rw [width_cons, List.length_append, List.length_cons]
          omega
    · cases t with
      | nil =>
        have : c = ' ' := (List.cons.inj ht).1
        exact absurd this hc
      | cons d t =>
        refine ⟨[], pre ++ d :: t, x :: ws, rfl, Nat.zero_le _, ?_⟩
        show pre.length < 0 + (pre ++ d :: t).length
        rw [List.length_append, List.length_cons]
        omega

end Words

end Lib
