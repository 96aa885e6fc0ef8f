import Mathlib.Data.List.Basic

/-!
# Bounded queues

Offering to a full queue drops the new item; the evicting offer drops the
oldest one instead.
-/

namespace Lib

structure BoundedQueue (α : Type) (limit : Nat) where
  items : List α
  bounded : items.length ≤ limit

namespace BoundedQueue

variable {α : Type} {limit : Nat}

def empty : BoundedQueue α limit := ⟨[], Nat.zero_le _⟩

def full (q : BoundedQueue α limit) : Bool := limit ≤ q.items.length

def offer (q : BoundedQueue α limit) (x : α) : BoundedQueue α limit :=
  if h : q.items.length < limit then ⟨q.items ++ [x], by rw [List.length_append, List.length_singleton]; omega⟩ else q

def dropOldest (q : BoundedQueue α limit) : BoundedQueue α limit :=
  ⟨q.items.tail, by rw [List.length_tail]; have := q.bounded; omega⟩

def offerEvicting (q : BoundedQueue α limit) (x : α) : BoundedQueue α limit :=
  if q.full then q.dropOldest.offer x else q.offer x

def next? (q : BoundedQueue α limit) : Option (α × BoundedQueue α limit) :=
  q.items.head?.map fun x => (x, q.dropOldest)

variable {q : BoundedQueue α limit} {x y : α}

theorem full_eq_true : q.full = true ↔ q.items.length = limit := by
  have := q.bounded
  simp only [full, decide_eq_true_eq]
  omega

theorem full_eq_false : q.full = false ↔ q.items.length < limit := by
  simp only [full, decide_eq_false_iff_not]
  omega

theorem offer_of_lt (h : q.items.length < limit) : (q.offer x).items = q.items ++ [x] := by simp [offer, h]

theorem offer_of_full (h : q.items.length = limit) : q.offer x = q := by simp [offer, h]

theorem offerEvicting_of_full (hl : 0 < limit) (h : q.items.length = limit) :
    (q.offerEvicting x).items = q.items.tail ++ [x] := by
  rw [offerEvicting, if_pos (full_eq_true.mpr h)]
  apply offer_of_lt
  rw [dropOldest, List.length_tail]
  omega

theorem offerEvicting_two (hl : 1 < limit) (h : q.items.length = limit) :
    ((q.offerEvicting x).offerEvicting y).items = q.items.drop 2 ++ [x, y] := by
  have hfirst := offerEvicting_of_full (x := x) (by omega) h
  have hlen : (q.offerEvicting x).items.length = limit := by
    rw [hfirst, List.length_append, List.length_tail, List.length_singleton]
    omega
  rw [offerEvicting_of_full (by omega) hlen, hfirst, List.tail_append_of_ne_nil, List.append_assoc]
  · rw [← List.drop_one, ← List.drop_one, List.drop_drop]
    rfl
  intro hnil
  have hz := congrArg List.length hnil
  rw [List.length_tail, List.length_nil] at hz
  omega

theorem getLast?_offer_two (hx : x ≠ y) (hq : y ∉ q.items) :
    ((q.offer x).offer y).items.getLast? = some y ↔ q.items.length + 2 ≤ limit := by
  have hb := q.bounded
  by_cases h1 : q.items.length < limit
  · have hfirst := offer_of_lt (x := x) h1
    have hlen : (q.offer x).items.length = q.items.length + 1 := by
      rw [hfirst, List.length_append, List.length_singleton]
    by_cases h2 : q.items.length + 1 < limit
    · rw [offer_of_lt (by omega), List.getLast?_concat]
      simp
      omega
    rw [offer_of_full (by omega), hfirst, List.getLast?_concat]
    simp [hx]
    omega
  rw [offer_of_full (x := x) (by omega), offer_of_full (by omega)]
  constructor
  · intro h
    exact absurd (List.mem_of_getLast? h) hq
  · intro h
    omega

theorem getLast?_offer (hq : y ∉ q.items) : (q.offer y).items.getLast? = some y ↔ q.items.length + 1 ≤ limit := by
  have hb := q.bounded
  by_cases h1 : q.items.length < limit
  · rw [offer_of_lt h1, List.getLast?_concat]
    simp
    omega
  rw [offer_of_full (by omega)]
  constructor
  · intro h
    exact absurd (List.mem_of_getLast? h) hq
  · intro h
    omega

theorem next?_items {q' : BoundedQueue α limit} (h : q.next? = some (x, q')) : q.items = x :: q'.items := by
  obtain ⟨z, hz, heq⟩ := Option.map_eq_some_iff.mp h
  cases heq
  exact (List.cons_head?_tail hz).symm

end BoundedQueue

end Lib
