import Mathlib.Data.List.Forall2
import Mathlib.Data.List.Nodup
import Mathlib.Order.Lattice

/-!
# Dictionaries in insertion order

A finite map that keeps the order in which its keys were first inserted:
replacing a value leaves the key at its place. `firstMaxOn` is the first maximum of
a list under a key function.
-/

namespace Lib

@[ext] structure Dict (κ α : Type) where
  entries : List (κ × α)
  nodup : (entries.map Prod.fst).Nodup
  deriving DecidableEq

namespace Dict

section
variable {κ α : Type} [DecidableEq κ]

def lookupIn (k : κ) : List (κ × α) → Option α
  | [] => none
  | (k', v) :: l => if k' = k then some v else lookupIn k l

def setIn (k : κ) (v : α) : List (κ × α) → List (κ × α)
  | [] => [(k, v)]
  | (k', v') :: l => if k' = k then (k', v) :: l else (k', v') :: setIn k v l

attribute [local simp] lookupIn setIn

theorem lookupIn_setIn (k k' : κ) (v : α) (l : List (κ × α)) :
    lookupIn k' (setIn k v l) = if k = k' then some v else lookupIn k' l := by
  induction l with
  | nil => rfl
  | cons p l ih =>
    obtain ⟨a, b⟩ := p
    by_cases ha : a = k
    · subst ha
      by_cases hk : a = k' <;> simp [hk]
    by_cases hk : a = k'
    · subst hk
      simp [ha, Ne.symm ha]
    · simp [ha, hk, ih]

theorem setIn_setIn (k : κ) (v w : α) : ∀ l : List (κ × α), setIn k w (setIn k v l) = setIn k w l
  | [] => by simp
  | (k', v') :: l => by
    by_cases hk : k' = k
    · simp [hk]
    · simp [hk, setIn_setIn k v w l]

variable {k x : κ} {v v' : α} {l : List (κ × α)} {d : Dict κ α} {β : Type}

theorem mem_keys_setIn : x ∈ (setIn k v l).map Prod.fst ↔ x = k ∨ x ∈ l.map Prod.fst := by
  induction l with
  | nil => simp
  | cons p l ih =>
    obtain ⟨a, b⟩ := p
    by_cases ha : a = k
    · subst ha
      simp
    · simp only [setIn, ha, ite_false, List.map_cons, List.mem_cons, ih]
      exact or_left_comm

theorem nodup_setIn (k : κ) (v : α) : ∀ {l : List (κ × α)}, (l.map Prod.fst).Nodup →
    ((setIn k v l).map Prod.fst).Nodup
  | [], _ => by simp
  | (a, b) :: l, h => by
    rw [List.map_cons, List.nodup_cons] at h
    by_cases ha : a = k
    · simpa [ha] using h
    · rw [setIn, if_neg ha, List.map_cons, List.nodup_cons]
      exact ⟨fun hm => (mem_keys_setIn.mp hm).elim ha h.1, nodup_setIn k v h.2⟩

theorem mem_of_lookupIn (h : lookupIn k l = some v) : (k, v) ∈ l := by
  induction l with
  | nil => simp at h
  | cons p l ih =>
    obtain ⟨a, b⟩ := p
    by_cases ha : a = k
    · simp only [lookupIn, ha, ite_true, Option.some.injEq] at h
      simp [ha, h]
    · simp only [lookupIn, ha, ite_false] at h
      exact List.mem_cons_of_mem _ (ih h)

theorem lookupIn_of_mem (hn : (l.map Prod.fst).Nodup) (h : (k, v) ∈ l) : lookupIn k l = some v := by
  induction l with
  | nil => cases h
  | cons p l ih =>
    obtain ⟨a, b⟩ := p
    rw [List.map_cons, List.nodup_cons] at hn
    rcases List.mem_cons.mp h with h | h
    · cases h; simp
    have ha : a ≠ k := by
      intro heq
      subst heq
      exact hn.1 (List.mem_map.mpr ⟨_, h, rfl⟩)
    simp [ha, ih hn.2 h]

theorem lookupIn_eq_none : ∀ {l : List (κ × α)}, lookupIn k l = none ↔ k ∉ l.map Prod.fst
  | [] => by simp
  | (a, b) :: l => by
    by_cases ha : a = k
    · simp [ha]
    · simp [ha, Ne.symm ha, lookupIn_eq_none (l := l)]

theorem setIn_of_not_mem (h : k ∉ l.map Prod.fst) : setIn k v l = l ++ [(k, v)] := by
  induction l with
  | nil => rfl
  | cons p l ih =>
    obtain ⟨a, b⟩ := p
    simp only [List.map_cons, List.mem_cons, not_or] at h
    simp [Ne.symm h.1, ih h.2]

/-! ## Operations -/

def empty : Dict κ α := ⟨[], List.nodup_nil⟩

def get? (d : Dict κ α) (k : κ) : Option α := lookupIn k d.entries

def set (d : Dict κ α) (k : κ) (v : α) : Dict κ α := ⟨setIn k v d.entries, nodup_setIn k v d.nodup⟩

def keys (d : Dict κ α) : List κ := d.entries.map Prod.fst

def values (d : Dict κ α) : List α := d.entries.map Prod.snd

def filterKeys (d : Dict κ α) (p : κ → Bool) : Dict κ α :=
  ⟨d.entries.filter fun e => p e.1, (List.Sublist.map Prod.fst List.filter_sublist).nodup d.nodup⟩

def mapKeyed {β : Type} (d : Dict κ α) (f : κ → β) : Dict κ β :=
  ⟨d.entries.map fun e => (e.1, f e.1), by simpa [List.map_map, Function.comp_def] using d.nodup⟩

def erase (d : Dict κ α) (k : κ) : Dict κ α := d.filterKeys fun k' => decide (k' ≠ k)

def ofEntries (l : List (κ × α)) : Dict κ α := l.foldl (fun d e => d.set e.1 e.2) empty

def moveToEnd (d : Dict κ α) (k : κ) : Dict κ α :=
  match d.get? k with
  | none => d
  | some v => (d.erase k).set k v

@[simp] theorem get?_empty (k : κ) : (empty : Dict κ α).get? k = none := rfl

theorem get?_set (d : Dict κ α) (k k' : κ) (v : α) :
    (d.set k v).get? k' = if k = k' then some v else d.get? k' := lookupIn_setIn k k' v d.entries

@[simp] theorem get?_set_self (d : Dict κ α) (k : κ) (v : α) : (d.set k v).get? k = some v := by
  rw [get?_set, if_pos rfl]

theorem set_set (d : Dict κ α) (k : κ) (v w : α) : (d.set k v).set k w = d.set k w :=
  Dict.ext (setIn_setIn k v w d.entries)

theorem get?_set_ne (d : Dict κ α) {k' : κ} (v : α) (h : k ≠ k') : (d.set k v).get? k' = d.get? k' := by
  rw [get?_set, if_neg h]

theorem get?_eq_some : d.get? k = some v ↔ (k, v) ∈ d.entries :=
  ⟨mem_of_lookupIn, lookupIn_of_mem d.nodup⟩

theorem mem_values : v ∈ d.values ↔ ∃ k, d.get? k = some v := by
  simp only [values, List.mem_map, get?_eq_some, Prod.exists, exists_eq_right]

theorem mem_keys : k ∈ d.keys ↔ ∃ v, d.get? k = some v := by
  simp only [keys, List.mem_map, get?_eq_some, Prod.exists, exists_and_right, exists_eq_right]

theorem get?_filterKeys (d : Dict κ α) (p : κ → Bool) (k : κ) :
    (d.filterKeys p).get? k = if p k then d.get? k else none := by
  ext v
  rw [get?_eq_some, filterKeys, List.mem_filter, ← get?_eq_some]
  by_cases hp : p k <;> simp [hp]

theorem get?_mapKeyed (d : Dict κ α) (f : κ → β) (k : κ) : (d.mapKeyed f).get? k = (d.get? k).map fun _ => f k := by
  have hlookup : ∀ l : List (κ × α), lookupIn k (l.map fun e => (e.1, f e.1)) = (lookupIn k l).map fun _ => f k := by
    intro l
    induction l with
    | nil => rfl
    | cons e l ih =>
      rw [List.map_cons, lookupIn, lookupIn, ih]
      split
      · rename_i hk
        rw [hk]
        rfl
      · rfl
  exact hlookup d.entries

theorem get?_erase (d : Dict κ α) (k k' : κ) :
    (d.erase k).get? k' = if k' = k then none else d.get? k' := by
  rw [erase, get?_filterKeys]
  by_cases h : k' = k <;> simp [h]

theorem get?_eq_none : d.get? k = none ↔ k ∉ d.keys := by
  rw [← not_iff_not, not_not, mem_keys, ← Option.isSome_iff_exists, Option.isSome_iff_ne_none]

theorem set_entries_of_none (h : d.get? k = none) :
    (d.set k v).entries = d.entries ++ [(k, v)] := setIn_of_not_mem (get?_eq_none.mp h)

theorem length_setIn_of_mem : ∀ {l : List (κ × α)}, k ∈ l.map Prod.fst → (setIn k v l).length = l.length
  | [], h => by cases h
  | (a, b) :: l, h => by
    by_cases ha : a = k
    · simp [ha]
    · rw [List.map_cons, List.mem_cons] at h
      rw [setIn, if_neg ha, List.length_cons, List.length_cons, length_setIn_of_mem (h.resolve_left (Ne.symm ha))]

theorem length_set_of_some (h : d.get? k = some v') :
    (d.set k v).entries.length = d.entries.length := length_setIn_of_mem (mem_keys.mpr ⟨v', h⟩)

theorem map_setIn_of_some {γ : Type} {f : κ × α → γ} (hf : f (k, v') = f (k, v)) :
    ∀ {l : List (κ × α)}, lookupIn k l = some v → (setIn k v' l).map f = l.map f
  | [], h => by cases h
  | (a, b) :: l, h => by
    by_cases ha : a = k
    · subst ha
      rw [lookupIn, if_pos rfl, Option.some.injEq] at h
      subst h
      rw [setIn, if_pos rfl, List.map_cons, List.map_cons, hf]
    · rw [lookupIn, if_neg ha] at h
      rw [setIn, if_neg ha, List.map_cons, List.map_cons, map_setIn_of_some hf h]

theorem keys_set_of_some (h : d.get? k = some v) : (d.set k v').keys = d.keys :=
  map_setIn_of_some (f := Prod.fst) (show (k, v').1 = (k, v).1 from rfl) h

theorem keys_set_of_none (h : d.get? k = none) : (d.set k v).keys = d.keys ++ [k] := by
  rw [keys, set_entries_of_none h, List.map_append, List.map_singleton]
  rfl

theorem mapM_get?_keys (d : Dict κ α) : d.keys.mapM d.get? = some d.values := by
  have h : ∀ l : List (κ × α), (∀ e ∈ l, e ∈ d.entries) → (l.map Prod.fst).mapM d.get? = some (l.map Prod.snd) := by
    intro l
    induction l with
    | nil => intro _; rfl
    | cons e l ih =>
      intro hl
      have he : d.get? e.1 = some e.2 := get?_eq_some.mpr (hl e (by simp))
      rw [List.map_cons, List.mapM_cons, he, ih fun x hx => hl x (List.mem_cons_of_mem _ hx)]
      rfl
  exact h d.entries fun _ he => he

theorem filter_ne_of_not_mem (h : k ∉ l.map Prod.fst) : l.filter (fun e => decide (e.1 ≠ k)) = l := by
  apply List.filter_eq_self.mpr
  intro e he
  have hne : e.1 ≠ k := by
    intro heq
    exact h (heq ▸ List.mem_map_of_mem he)
  simpa using hne

theorem length_erase_of_some (h : d.get? k = some v) : (d.erase k).entries.length + 1 = d.entries.length := by
  obtain ⟨l₁, l₂, hl⟩ := List.append_of_mem (get?_eq_some.mp h)
  have hn := d.nodup
  rw [hl, List.map_append, List.map_cons, List.nodup_middle, List.nodup_cons, List.mem_append, not_or] at hn
  have herase : (d.erase k).entries = d.entries.filter fun e => decide (e.1 ≠ k) := rfl
  rw [herase, hl, List.filter_append, List.filter_cons_of_neg (by simp), filter_ne_of_not_mem hn.1.1,
    filter_ne_of_not_mem hn.1.2, List.length_append, List.length_append, List.length_cons]
  omega

theorem entries_foldl_set : ∀ (l : List (κ × α)) (d : Dict κ α), (d.keys ++ l.map Prod.fst).Nodup →
    (l.foldl (fun d e => d.set e.1 e.2) d).entries = d.entries ++ l
  | [], d, _ => by simp
  | (k, v) :: l, d, h => by
    have hk : d.get? k = none := by
      rw [get?_eq_none]
      intro hmem
      exact (List.nodup_append.mp h).2.2 k hmem k (by simp) rfl
    have hkeys : (d.set k v).keys ++ l.map Prod.fst = d.keys ++ ((k, v) :: l).map Prod.fst := by
      rw [keys_set_of_none hk, List.append_assoc]
      rfl
    rw [List.foldl_cons, entries_foldl_set l (d.set k v) (hkeys ▸ h), set_entries_of_none hk, List.append_assoc]
    rfl

theorem entries_ofEntries (h : (l.map Prod.fst).Nodup) : (ofEntries l).entries = l :=
  entries_foldl_set l empty h

theorem mem_keys_foldl_set : ∀ {l : List (κ × α)} {d : Dict κ α},
    x ∈ (l.foldl (fun d e => d.set e.1 e.2) d).keys ↔ x ∈ d.keys ∨ x ∈ l.map Prod.fst
  | [], d => by simp
  | (k, v) :: l, d => by
    have hset : x ∈ (d.set k v).keys ↔ x = k ∨ x ∈ d.keys := mem_keys_setIn
    rw [List.foldl_cons, mem_keys_foldl_set, hset, List.map_cons, List.mem_cons]
    tauto

theorem mem_keys_ofEntries : x ∈ (ofEntries l).keys ↔ x ∈ l.map Prod.fst := by
  rw [ofEntries, mem_keys_foldl_set]
  simp [keys, empty]

theorem lookupIn_map (key : β → κ) (value : β → α) (k : κ) : ∀ l : List β,
    lookupIn k (l.map fun b => (key b, value b)) = (l.find? fun b => decide (key b = k)).map value
  | [] => rfl
  | b :: l => by
    by_cases hb : key b = k
    · simp [hb]
    · simp [hb, lookupIn_map key value k l]

theorem get?_ofEntries_map {key : β → κ} {value : β → α} {l : List β} (h : (l.map key).Nodup) (k : κ) :
    (ofEntries (l.map fun b => (key b, value b))).get? k = (l.find? fun b => decide (key b = k)).map value := by
  rw [get?, entries_ofEntries (by simpa [List.map_map, Function.comp_def] using h), lookupIn_map]

@[simp] theorem get?_moveToEnd (d : Dict κ α) (k k' : κ) : (d.moveToEnd k).get? k' = d.get? k' := by
  unfold moveToEnd
  cases hk : d.get? k with
  | none => rfl
  | some v =>
    simp only [get?_set, get?_erase]
    by_cases h : k = k'
    · simp [h, ← hk]
    · simp [h, Ne.symm h]

theorem length_moveToEnd (d : Dict κ α) (k : κ) : (d.moveToEnd k).entries.length = d.entries.length := by
  unfold moveToEnd
  cases hk : d.get? k with
  | none => rfl
  | some v =>
    have hnone : (d.erase k).get? k = none := by rw [get?_erase, if_pos rfl]
    simp only [set_entries_of_none hnone, List.length_append, List.length_singleton]
    exact length_erase_of_some hk

end

end Dict

/-! ## First maximum -/

variable {α β : Type} [LinearOrder β] (f : α → β)

def firstMaxOn : List α → Option α
  | [] => none
  | a :: l => some (l.foldl (fun m b => if f m < f b then b else m) a)

def IsFirstMax (l : List α) (g : α) : Prop :=
  ∃ l₁ l₂, l = l₁ ++ g :: l₂ ∧ (∀ x ∈ l₁, f x < f g) ∧ ∀ x ∈ l₂, f x ≤ f g

theorem isFirstMax_foldl (l₂ : List α) : ∀ (l : List α) (g : α), IsFirstMax f l g →
    IsFirstMax f (l ++ l₂) (l₂.foldl (fun m b => if f m < f b then b else m) g) := by
  induction l₂ with
  | nil => intro l g h; simpa using h
  | cons b l₂ ih =>
    intro l g hex
    obtain ⟨s, t, rfl, hs, ht⟩ := hex
    rw [List.append_cons, List.foldl_cons]
    by_cases hb : f g < f b
    · rw [if_pos hb]
      refine ih _ _ ⟨s ++ g :: t, [], rfl, fun x hx => ?_, by simp⟩
      rcases List.mem_append.mp hx with hx | hx
      · exact (hs x hx).trans hb
      rcases List.mem_cons.mp hx with rfl | hx
      · exact hb
      · exact (ht x hx).trans_lt hb
    rw [if_neg hb]
    refine ih _ _ ⟨s, t ++ [b], by simp, hs, fun x hx => ?_⟩
    rcases List.mem_append.mp hx with hx | hx
    · exact ht x hx
    · rw [List.mem_singleton.mp hx]
      exact not_lt.mp hb

variable {l : List α} {g : α}

theorem isFirstMax_of_firstMaxOn (h : firstMaxOn f l = some g) : IsFirstMax f l g := by
  cases l with
  | nil => cases h
  | cons a l =>
    cases h
    exact isFirstMax_foldl f l [a] a ⟨[], [], rfl, by simp, by simp⟩

theorem IsFirstMax.unique {g' : α} (h : IsFirstMax f l g) (h' : IsFirstMax f l g') : g = g' := by
  obtain ⟨s, t, rfl, hs, ht⟩ := h
  obtain ⟨s', t', he, hs', ht'⟩ := h'
  rcases List.append_eq_append_iff.mp he with ⟨u, rfl, hu⟩ | ⟨u, rfl, hu⟩
  · cases u with
    | nil => simp at hu; exact hu.1
    | cons x u =>
      simp only [List.cons_append, List.cons.injEq] at hu
      obtain ⟨rfl, rfl⟩ := hu
      exact absurd (hs' g (by simp)) (not_lt.mpr (ht g' (by simp)))
  cases u with
  | nil => simp at hu; exact hu.1.symm
  | cons x u =>
    simp only [List.cons_append, List.cons.injEq] at hu
    obtain ⟨rfl, rfl⟩ := hu
    exact absurd (hs g' (by simp)) (not_lt.mpr (ht' g (by simp)))

theorem isFirstMax_append {l' : List α} : IsFirstMax f (l ++ l') g ↔
    (IsFirstMax f l g ∧ ∀ x ∈ l', f x ≤ f g) ∨ ((∀ x ∈ l, f x < f g) ∧ IsFirstMax f l' g) := by
  constructor
  · intro h
    obtain ⟨s, t, he, hs, ht⟩ := h
    rcases List.append_eq_append_iff.mp he with ⟨u, rfl, rfl⟩ | ⟨u, rfl, hu⟩
    · exact Or.inr ⟨fun x hx => hs x (List.mem_append_left _ hx), u, t, rfl,
        fun x hx => hs x (List.mem_append_right _ hx), ht⟩
    cases u with
    | nil =>
      rw [List.nil_append] at hu
      exact Or.inr ⟨by simpa using hs, [], t, hu.symm, by simp, ht⟩
    | cons x u =>
      rw [List.cons_append, List.cons.injEq] at hu
      obtain ⟨rfl, rfl⟩ := hu
      exact Or.inl ⟨⟨s, u, rfl, hs, fun y hy => ht y (List.mem_append_left _ hy)⟩,
        fun y hy => ht y (List.mem_append_right _ hy)⟩
  · intro h
    rcases h with ⟨⟨s, t, rfl, hs, ht⟩, hr⟩ | ⟨hl, s, t, rfl, hs, ht⟩
    · refine ⟨s, t ++ l', by simp, hs, fun x hx => ?_⟩
      rcases List.mem_append.mp hx with hx | hx
      · exact ht x hx
      · exact hr x hx
    refine ⟨l ++ s, t, by simp, fun x hx => ?_, ht⟩
    rcases List.mem_append.mp hx with hx | hx
    · exact hl x hx
    · exact hs x hx

theorem firstMaxOn_eq_none : firstMaxOn f l = none ↔ l = [] := by
  cases l <;> simp [firstMaxOn]

theorem firstMaxOn_eq_some : firstMaxOn f l = some g ↔ IsFirstMax f l g := by
  refine ⟨isFirstMax_of_firstMaxOn f, fun h => ?_⟩
  cases hm : firstMaxOn f l with
  | none =>
    obtain ⟨s, t, rfl, -, -⟩ := h
    cases s <;> cases hm
  | some g' => rw [(isFirstMax_of_firstMaxOn f hm).unique f h]

theorem firstMaxOn_mem (h : firstMaxOn f l = some g) : g ∈ l := by
  obtain ⟨s, t, rfl, -, -⟩ := isFirstMax_of_firstMaxOn f h
  simp

theorem firstMaxOn_filter (p : α → Bool) (h : firstMaxOn f l = some g) (hg : p g = true) :
    firstMaxOn f (l.filter p) = some g := by
  obtain ⟨s, t, rfl, hs, ht⟩ := isFirstMax_of_firstMaxOn f h
  refine (firstMaxOn_eq_some f).mpr ⟨s.filter p, t.filter p, by simp [hg], ?_, ?_⟩
  · exact fun x hx => hs x (List.mem_filter.mp hx).1
  · exact fun x hx => ht x (List.mem_filter.mp hx).1

/-! ## Functions that may fail -/

section
variable {α β : Type} {f : α → Option β} {xs : List α} {ys : List β} {x : α}

theorem mapM_eq_some : xs.mapM f = some ys ↔ List.Forall₂ (fun x y => f x = some y) xs ys := by
  induction xs generalizing ys with
  | nil => simp [eq_comm]
  | cons x xs ih =>
    simp only [List.mapM_cons, List.forall₂_cons_left_iff, ← ih, Option.bind_eq_bind, Option.bind_eq_some_iff, Option.pure_def,
      Option.some.injEq, exists_and_left, eq_comm (b := ys)]

theorem mapM_mem (h : xs.mapM f = some ys) (hx : x ∈ xs) : ∃ y ∈ ys, f x = some y := by
  induction mapM_eq_some.mp h with
  | nil => cases hx
  | @cons a b as bs hf hall ih =>
    rcases List.mem_cons.mp hx with rfl | hx
    · exact ⟨b, List.mem_cons_self, hf⟩
    · obtain ⟨y, hy, hf⟩ := ih (mapM_eq_some.mpr hall) hx
      exact ⟨y, List.mem_cons_of_mem _ hy, hf⟩

theorem isSome_mapM : (xs.mapM f).isSome = true ↔ ∀ x ∈ xs, (f x).isSome = true := by
  induction xs with
  | nil => simp
  | cons x xs ih =>
    rw [List.mapM_cons, List.forall_mem_cons, ← ih]
    cases hx : f x with
    | none => simp
    | some y => cases hxs : xs.mapM f <;> simp

end

end Lib
