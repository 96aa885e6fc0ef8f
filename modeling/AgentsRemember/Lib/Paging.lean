import Mathlib.Data.List.Basic

/-!
# Pages under two budgets

A page takes what comes after a position, in order, until a number or a size is
reached; it takes one item whatever its size. A reader asks on from the last
item it got while a page says that it was cut. Over items of rising positions
the pages together are all that comes after the first position.
-/

namespace Lib

variable {α : Type} (position : α → Int) (size : α → Nat)

def after (start : Int) (items : List α) : List α := items.filter fun i => start < position i

def pageIn (start : Int) (limit budget : Nat) : List α → List α → Nat → List α × Bool
  | [], taken, _ => (taken, false)
  | i :: rest, taken, used =>
    if position i ≤ start then pageIn start limit budget rest taken used
    else if limit ≤ taken.length ∨ (taken ≠ [] ∧ budget < used + size i) then (taken, true)
    else pageIn start limit budget rest (taken ++ [i]) (used + size i)

def readPages (page : Int → List α × Bool) : Nat → Int → Option (List α)
  | 0, _ => none
  | fuel + 1, start =>
    if (page start).2 = false then some (page start).1
    else (page start).1.getLast?.bind fun last => (readPages page fuel (position last)).map fun rest => (page start).1 ++ rest

structure ReadsAll (page : Int → List α × Bool) (start : Int) (items : List α) : Prop where
  ends : ∃ pages, ∀ fuel, pages ≤ fuel → readPages position page fuel start = some items
  ordered : items.Pairwise fun i j => position i < position j

variable {position size} {start : Int} {limit budget : Nat}

variable {i : α} {items : List α}

theorem after_cons_of_le (h : position i ≤ start) : after position start (i :: items) = after position start items :=
  List.filter_cons_of_neg (by simpa using h)

theorem after_cons_of_lt (h : start < position i) :
    after position start (i :: items) = i :: after position start items :=
  List.filter_cons_of_pos (by simpa using h)

theorem pageIn_spec (hlimit : 0 < limit) : ∀ (items taken : List α) (used : Nat), ∃ more left,
    (pageIn position size start limit budget items taken used).1 = taken ++ more ∧
    after position start items = more ++ left ∧
    ((pageIn position size start limit budget items taken used).2 = false → left = []) ∧
    ((pageIn position size start limit budget items taken used).2 = true → taken ++ more ≠ [])
  | [], taken, used => ⟨[], [], (List.append_nil taken).symm, rfl, fun _ => rfl, fun h => by cases h⟩
  | i :: rest, taken, used => by
    rw [pageIn]
    by_cases hread : position i ≤ start
    · rw [if_pos hread, after_cons_of_le hread]
      exact pageIn_spec hlimit rest taken used
    rw [if_neg hread, after_cons_of_lt (Int.not_le.mp hread)]
    split
    · rename_i hcut
      refine ⟨[], i :: after position start rest, (List.append_nil taken).symm, rfl, (by simp), fun _ => ?_⟩
      rw [List.append_nil]
      rcases hcut with hfull | ⟨hne, -⟩
      · exact List.ne_nil_of_length_pos (by omega)
      · exact hne
    obtain ⟨more, left, hpage, hafter, hwhole, -⟩ :=
      pageIn_spec hlimit rest (taken ++ [i]) (used + size i)
    refine ⟨i :: more, left, by simpa using hpage, by rw [hafter]; rfl, hwhole, fun _ => by simp⟩

theorem after_getLast? {more left : List α} {last : α} (hsorted : items.Pairwise fun i j => position i < position j)
    (h : after position start items = more ++ left) (hlast : more.getLast? = some last) :
    after position (position last) items = left := by
  have hmem : last ∈ after position start items := h ▸ List.mem_append_left _ (List.mem_of_getLast? hlast)
  have hlater : start < position last := by simpa using (List.mem_filter.mp hmem).2
  have hsub : after position (position last) items = after position (position last) (after position start items) := by
    rw [after, after, after, List.filter_filter]
    refine List.filter_congr fun i _ => ?_
    rw [Bool.eq_iff_iff, Bool.and_eq_true]
    simp only [decide_eq_true_eq]
    omega
  have hparts : (more ++ left).Pairwise fun i j => position i < position j := h ▸ hsorted.filter _
  obtain ⟨init, rfl⟩ := List.getLast?_eq_some_iff.mp hlast
  rw [List.pairwise_append] at hparts
  obtain ⟨hmore, -, hacross⟩ := hparts
  rw [hsub, h, after, List.filter_append, List.filter_eq_nil_iff.mpr, List.nil_append, List.filter_eq_self]
  · intro i hi
    simpa using hacross last (by simp) i hi
  intro i hi
  rw [decide_eq_true_eq, Int.not_lt]
  rcases List.mem_append.mp hi with hi | hi
  · exact Int.le_of_lt ((List.pairwise_append.mp hmore).2.2 i hi last (by simp))
  · exact Int.le_of_eq (congrArg position (List.mem_singleton.mp hi))

theorem readPages_pageIn (hlimit : 0 < limit) (hsorted : items.Pairwise fun i j => position i < position j) :
    ∀ {fuel : Nat} {start : Int},
    (after position start items).length < fuel →
      readPages position (fun start => pageIn position size start limit budget items [] 0) fuel start =
        some (after position start items)
  | 0, start, h => by cases h
  | fuel + 1, start, h => by
    obtain ⟨more, left, hpage, hafter, hwhole, hcut⟩ :=
      @pageIn_spec α position size start limit budget hlimit items [] 0
    rw [List.nil_append] at hpage hcut
    rw [readPages]
    split
    · rename_i hdone
      rw [hpage, hafter, hwhole hdone, List.append_nil]
    rename_i hmore
    have hne := hcut (by simpa using hmore)
    have hlast := List.getLast?_eq_some_getLast hne
    have hrest := after_getLast? hsorted hafter hlast
    have hfewer : left.length < fuel := by
      have hpos := List.length_pos_of_ne_nil hne
      rw [hafter, List.length_append] at h
      omega
    rw [hpage, hlast, Option.bind_some, readPages_pageIn hlimit hsorted (by rw [hrest]; exact hfewer), hrest, hafter]
    rfl

theorem readsAll_pageIn (hlimit : 0 < limit) (hsorted : items.Pairwise fun i j => position i < position j) (start : Int) :
    ReadsAll position (fun start => pageIn position size start limit budget items [] 0) start (after position start items) := by
  refine ⟨⟨items.length + 1, fun fuel hfuel => readPages_pageIn hlimit hsorted ?_⟩, hsorted.filter _⟩
  exact Nat.lt_of_le_of_lt (List.length_filter_le _ _) hfuel

theorem after_eq_self (h : ∀ i ∈ items, start < position i) : after position start items = items :=
  List.filter_eq_self.mpr fun i hi => by simpa using h i hi

end Lib
