import Mathlib.Data.List.Basic
import Mathlib.Algebra.BigOperators.Group.Finset.Piecewise
import Mathlib.Algebra.Order.BigOperators.Group.Finset

/-!
# Properties of event lists

An event list is chronological: the newest event is last. The relations between
kinds of events are stated by splitting the list at an event; each has a rule
for one more event.
-/

namespace Lib

section
variable {α : Type} {p q : α → Prop}

def NeverAfter (p q : α → Prop) (l : List α) : Prop := ∀ a x b, l = a ++ x :: b → p x → ∀ y ∈ b, ¬ q y

def FollowedBy (p q : α → Prop) (l : List α) : Prop := ∀ a x b, l = a ++ x :: b → p x → ∃ y ∈ b, q y

def SeparatedBy (p q : α → Prop) (l : List α) : Prop :=
  ∀ a x b y c, l = a ++ x :: (b ++ y :: c) → p x → p y → ∃ z ∈ b, q z

def OccursSince (p q : α → Prop) (l : List α) : Prop :=
  ∃ a x b, l = a ++ x :: b ∧ p x ∧ (∀ y ∈ b, ¬ p y) ∧ ∃ y ∈ b, q y

variable {l : List α} {e : α}

theorem concat_eq_append_cons {a b : List α} {x : α} (h : l ++ [e] = a ++ x :: b) :
    (b = [] ∧ a = l ∧ x = e) ∨ ∃ b', b = b' ++ [e] ∧ l = a ++ x :: b' := by
  rcases List.eq_nil_or_concat b with rfl | ⟨b', e', rfl⟩
  · obtain ⟨h1, h2⟩ := List.append_inj' h rfl
    simp only [List.cons.injEq, and_true] at h2
    exact Or.inl ⟨rfl, h1.symm, h2.symm⟩
  rw [List.concat_eq_append] at h ⊢
  rw [← List.cons_append, ← List.append_assoc] at h
  obtain ⟨h1, h2⟩ := List.append_inj' h rfl
  simp only [List.cons.injEq, and_true] at h2
  subst h2
  exact Or.inr ⟨b', rfl, h1⟩

theorem neverAfter_nil : NeverAfter p q [] := by
  intro a x b h
  cases a <;> cases h

theorem NeverAfter.concat (h : NeverAfter p q l) (he : q e → ∀ x ∈ l, ¬ p x) : NeverAfter p q (l ++ [e]) := by
  intro a x b hl hx y hy
  rcases concat_eq_append_cons hl with ⟨rfl, -, -⟩ | ⟨b', rfl, rfl⟩
  · cases hy
  rcases List.mem_append.mp hy with hy | hy
  · exact h a x b' rfl hx y hy
  · rw [List.mem_singleton.mp hy]
    exact fun hq => he hq x (by simp) hx

theorem neverAfter_iff_pairwise : NeverAfter p q l ↔ l.Pairwise fun x y => p x → ¬ q y := by
  induction l with
  | nil => exact ⟨fun _ => .nil, fun _ => neverAfter_nil⟩
  | cons z l ih =>
    rw [List.pairwise_cons, ← ih]
    constructor
    · intro h
      exact ⟨fun y hy hz => h [] z l rfl hz y hy, fun a x b hl => h (z :: a) x b (by rw [hl]; rfl)⟩
    intro h a x b hl hx y hy
    cases a with
    | nil =>
      cases hl
      exact h.1 y hy hx
    | cons z' a =>
      cases hl
      exact h.2 a x b rfl hx y hy

theorem FollowedBy.concat (h : FollowedBy p q l) (he : ¬ p e) : FollowedBy p q (l ++ [e]) := by
  intro a x b hl hx
  rcases concat_eq_append_cons hl with ⟨rfl, -, rfl⟩ | ⟨b', rfl, rfl⟩
  · exact absurd hx he
  · obtain ⟨y, hy, hq⟩ := h a x b' rfl hx
    exact ⟨y, List.mem_append_left _ hy, hq⟩

theorem followedBy_concat (he : ¬ p e) (hq : q e) : FollowedBy p q (l ++ [e]) := by
  intro a x b hl hx
  rcases concat_eq_append_cons hl with ⟨rfl, -, rfl⟩ | ⟨b', rfl, rfl⟩
  · exact absurd hx he
  · exact ⟨e, by simp, hq⟩

theorem separatedBy_nil : SeparatedBy p q [] := by
  intro a x b y c h
  cases a <;> cases h

theorem SeparatedBy.concat (h : SeparatedBy p q l) (he : p e → FollowedBy p q l) : SeparatedBy p q (l ++ [e]) := by
  intro a x b y c hl hx hy
  rcases concat_eq_append_cons hl with ⟨hb, -, -⟩ | ⟨b', hb, rfl⟩
  · cases b <;> cases hb
  rcases List.eq_nil_or_concat c with rfl | ⟨c', e', rfl⟩
  · obtain ⟨rfl, h2⟩ := List.append_inj' hb rfl
    cases h2
    exact he hy a x b rfl hx
  rw [List.concat_eq_append, ← List.cons_append, ← List.append_assoc] at hb
  obtain ⟨rfl, h2⟩ := List.append_inj' hb rfl
  exact h a x b y c' rfl hx hy

theorem exists_last (h : ∃ x ∈ l, p x) : ∃ a x b, l = a ++ x :: b ∧ p x ∧ ∀ y ∈ b, ¬ p y := by
  induction l with
  | nil => obtain ⟨x, hx, -⟩ := h; cases hx
  | cons z l ih =>
    by_cases hl : ∃ x ∈ l, p x
    · obtain ⟨a, x, b, rfl, hx, hb⟩ := ih hl
      exact ⟨z :: a, x, b, rfl, hx, hb⟩
    obtain ⟨x, hx, hp⟩ := h
    have hz : x = z := (List.mem_cons.mp hx).resolve_right fun hm => hl ⟨x, hm, hp⟩
    subst hz
    exact ⟨[], x, l, rfl, hp, fun y hy hp' => hl ⟨y, hy, hp'⟩⟩

theorem OccursSince.append {l' : List α} (h : OccursSince p q l) (he : ∀ e ∈ l', ¬ p e) :
    OccursSince p q (l ++ l') := by
  obtain ⟨a, x, b, rfl, hx, hb, y, hy, hq⟩ := h
  refine ⟨a, x, b ++ l', by simp, hx, fun z hz => ?_, y, List.mem_append_left _ hy, hq⟩
  rcases List.mem_append.mp hz with hz | hz
  · exact hb z hz
  · exact he z hz

theorem occursSince_concat (h : ∃ x ∈ l, p x) (he : ¬ p e) (hq : q e) : OccursSince p q (l ++ [e]) := by
  obtain ⟨a, x, b, rfl, hx, hb⟩ := exists_last h
  refine ⟨a, x, b ++ [e], by simp, hx, fun z hz => ?_, e, by simp, hq⟩
  rcases List.mem_append.mp hz with hz | hz
  · exact hb z hz
  · rw [List.mem_singleton.mp hz]
    exact he

end

section
variable {α β : Type} [DecidableEq β] (f : α → β)

theorem countP_eq_sum_fibers (p : α → Bool) (l : List α) (S : Finset β) (hS : ∀ a ∈ l, f a ∈ S) :
    l.countP p = ∑ b ∈ S, l.countP fun a => p a && decide (f a = b) := by
  induction l with
  | nil => simp
  | cons a l ih =>
    have ha : f a ∈ S := hS a (by simp)
    have hone : (if p a then 1 else 0) = ∑ b ∈ S, if (p a && decide (f a = b)) = true then 1 else 0 := by
      by_cases hp : p a
      · simp [hp, Finset.sum_ite_eq, ha]
      · simp [hp]
    simp only [List.countP_cons, Finset.sum_add_distrib, ← hone]
    rw [ih fun x hx => hS x (List.mem_cons_of_mem _ hx)]

theorem countP_le_of_fibers {p q : α → Bool} {l : List α}
    (h : ∀ b, (l.countP fun a => p a && decide (f a = b)) ≤ l.countP fun a => q a && decide (f a = b)) :
    l.countP p ≤ l.countP q := by
  have hS : ∀ a ∈ l, f a ∈ (l.map f).toFinset := fun a ha => by simpa using ⟨a, ha, rfl⟩
  rw [countP_eq_sum_fibers f p l _ hS, countP_eq_sum_fibers f q l _ hS]
  exact Finset.sum_le_sum fun b _ => h b

end

/-! ## Lists of tasks

A task that starts takes the next place, and one that goes on or ends keeps its
own.
-/

variable {α : Type} {l : List α} {x y : α} {i j : Nat}

theorem getElem?_concat (h : (l ++ [x])[i]? = some y) : l[i]? = some y ∨ (i = l.length ∧ x = y) := by
  rw [List.getElem?_append] at h
  split at h
  · exact .inl h
  obtain ⟨hi, hx⟩ := List.getElem?_eq_some_iff.mp h
  rw [List.length_singleton] at hi
  refine .inr ⟨by omega, ?_⟩
  rwa [List.getElem_singleton] at hx

theorem getElem?_replaced (h : (l.set i x)[j]? = some y) : (j ≠ i ∧ l[j]? = some y) ∨ (j = i ∧ x = y) := by
  rw [List.getElem?_set] at h
  split at h
  · rename_i heq
    split at h
    · exact .inr ⟨heq.symm, Option.some.inj h⟩
    · cases h
  · rename_i hne
    exact .inl ⟨Ne.symm hne, h⟩

end Lib
