import AgentsRemember.Lib.Dict
import Mathlib.Data.List.Perm.Subperm

/-!
# Trees of objects and arrays

A tree over scalars `σ`, seen from outside as the shapes at its paths.
`deepEquals` is the comparison both sides of a wire make: arrays in order,
objects by key in any order, scalars by a relation, and some keys skipped. On
trees whose objects name a key once it is decided by the paths that go through
no skipped key.
-/

namespace Lib

inductive Json (σ : Type)
  | scalar (value : σ)
  | arr (items : List (Json σ))
  | obj (fields : List (String × Json σ))

namespace Json

inductive Step
  | index (i : Nat)
  | key (k : String)

inductive Shape (σ : Type)
  | scalar (value : σ)
  | arr (length : Nat)
  | obj
  deriving DecidableEq

variable {σ τ : Type}

def shape : Json σ → Shape σ
  | .scalar value => .scalar value
  | .arr items => .arr items.length
  | .obj _ => .obj

def child : Json σ → Step → Option (Json σ)
  | .arr items, .index i => items[i]?
  | .obj fields, .key k => Dict.lookupIn k fields
  | _, _ => none

def shapeAt (v : Json σ) : List Step → Option (Shape σ)
  | [] => some v.shape
  | s :: path => (v.child s).bind fun w => shapeAt w path

/-! ## Trees whose objects name each key once -/

mutual
def wellKeyed : Json σ → Bool
  | .scalar _ => true
  | .arr items => wellKeyedItems items
  | .obj fields => decide (fields.map Prod.fst).Nodup && wellKeyedFields fields
  termination_by structural v => v
def wellKeyedItems : List (Json σ) → Bool
  | [] => true
  | v :: items => wellKeyed v && wellKeyedItems items
  termination_by structural items => items
def wellKeyedFields : List (String × Json σ) → Bool
  | [] => true
  | (_, v) :: fields => wellKeyed v && wellKeyedFields fields
  termination_by structural fields => fields
end

attribute [local simp] wellKeyed wellKeyedItems wellKeyedFields

theorem wellKeyed_of_mem_items : ∀ {items : List (Json σ)}, wellKeyedItems items = true → ∀ v ∈ items, v.wellKeyed = true
  | [], _, v, h => by cases h
  | w :: items, hw, v, h => by
    rw [wellKeyedItems, Bool.and_eq_true] at hw
    rcases List.mem_cons.mp h with rfl | h
    · exact hw.1
    · exact wellKeyed_of_mem_items hw.2 v h

theorem wellKeyed_of_mem_fields : ∀ {fields : List (String × Json σ)}, wellKeyedFields fields = true →
    ∀ k v, (k, v) ∈ fields → v.wellKeyed = true
  | [], _, k, v, h => by cases h
  | (k', w) :: fields, hw, k, v, h => by
    rw [wellKeyedFields, Bool.and_eq_true] at hw
    rcases List.mem_cons.mp h with h | h
    · cases h
      exact hw.1
    · exact wellKeyed_of_mem_fields hw.2 k v h

theorem nodup_of_wellKeyed {fields : List (String × Json σ)} (h : (Json.obj fields).wellKeyed = true) :
    (fields.map Prod.fst).Nodup := by
  rw [wellKeyed, Bool.and_eq_true, decide_eq_true_eq] at h
  exact h.1

theorem wellKeyed_child {v w : Json σ} {s : Step} (h : v.wellKeyed = true) (hc : v.child s = some w) :
    w.wellKeyed = true := by
  cases v with
  | scalar value => cases s <;> cases hc
  | arr items =>
    cases s with
    | index i =>
      rw [wellKeyed] at h
      exact wellKeyed_of_mem_items h w (List.mem_of_getElem? hc)
    | key k => cases hc
  | obj fields =>
    cases s with
    | index i => cases hc
    | key k =>
      rw [wellKeyed, Bool.and_eq_true] at h
      exact wellKeyed_of_mem_fields h.2 k w (Dict.mem_of_lookupIn hc)

/-! ## Comparison -/

section
variable (same : σ → σ → Bool) (skip : String → Bool)

mutual
def deepEquals : Json σ → Json σ → Bool
  | .scalar s, .scalar t => same s t
  | .arr xs, .arr ys => itemsEqual xs ys
  | .obj xs, .obj ys =>
    (xs.filter fun e => !skip e.1).length == (ys.filter fun e => !skip e.1).length && fieldsEqual xs ys
  | _, _ => false
  termination_by structural a => a
def itemsEqual : List (Json σ) → List (Json σ) → Bool
  | [], [] => true
  | x :: xs, y :: ys => deepEquals x y && itemsEqual xs ys
  | _, _ => false
  termination_by structural xs => xs
def fieldsEqual : List (String × Json σ) → List (String × Json σ) → Bool
  | [], _ => true
  | (k, v) :: xs, ys =>
    (skip k || match Dict.lookupIn k ys with
      | some w => deepEquals v w
      | none => false) && fieldsEqual xs ys
  termination_by structural xs => xs
end

end

section
variable {same : σ → σ → Bool} {skip : String → Bool}

attribute [local simp] deepEquals itemsEqual fieldsEqual shapeAt

theorem itemsEqual_length : ∀ {xs ys : List (Json σ)}, itemsEqual same skip xs ys = true → xs.length = ys.length
  | [], [], _ => rfl
  | x :: xs, y :: ys, h => by
    rw [itemsEqual, Bool.and_eq_true] at h
    rw [List.length_cons, List.length_cons, itemsEqual_length h.2]

theorem itemsEqual_get : ∀ {xs ys : List (Json σ)}, itemsEqual same skip xs ys = true → ∀ (i : Nat) (x y : Json σ),
    xs[i]? = some x → ys[i]? = some y → deepEquals same skip x y = true
  | [], _, _, i, x, y, hx, _ => by simp at hx
  | x' :: xs, [], h, _, _, _, _, _ => by simp at h
  | x' :: xs, y' :: ys, h, 0, x, y, hx, hy => by
    rw [itemsEqual, Bool.and_eq_true] at h
    cases hx
    cases hy
    exact h.1
  | x' :: xs, y' :: ys, h, i + 1, x, y, hx, hy => by
    rw [itemsEqual, Bool.and_eq_true] at h
    exact itemsEqual_get h.2 i x y (by simpa using hx) (by simpa using hy)

theorem fieldsEqual_get : ∀ {xs ys : List (String × Json σ)}, fieldsEqual same skip xs ys = true →
    ∀ k v, (k, v) ∈ xs →
    skip k = false → ∃ w, Dict.lookupIn k ys = some w ∧ deepEquals same skip v w = true
  | [], _, _, k, v, hm, _ => by cases hm
  | (k', v') :: xs, ys, h, k, v, hm, hs => by
    rw [fieldsEqual, Bool.and_eq_true] at h
    rcases List.mem_cons.mp hm with hm | hm
    · cases hm
      have hv := h.1
      rw [hs, Bool.false_or] at hv
      split at hv
      · rename_i w hw
        exact ⟨w, hw, hv⟩
      · cases hv
    · exact fieldsEqual_get h.2 k v hm hs

def keptKeys (skip : String → Bool) (fields : List (String × Json σ)) : List String :=
  (fields.filter fun e => !skip e.1).map Prod.fst

variable {fields xs ys : List (String × Json σ)} {s : Step} {a b : Json σ}

theorem mem_keptKeys {k : String} :
    k ∈ keptKeys skip fields ↔ skip k = false ∧ (Dict.lookupIn k fields).isSome = true := by
  constructor
  · intro h
    obtain ⟨⟨k', v⟩, hm, rfl⟩ := List.mem_map.mp h
    obtain ⟨hm, hs⟩ := List.mem_filter.mp hm
    refine ⟨by simpa using hs, ?_⟩
    by_contra hnone
    rw [Bool.not_eq_true, Option.isSome_eq_false_iff, Option.isNone_iff_eq_none] at hnone
    exact Dict.lookupIn_eq_none.mp hnone (List.mem_map_of_mem hm)
  intro ⟨hs, hv⟩
  obtain ⟨v, hv⟩ := Option.isSome_iff_exists.mp hv
  exact List.mem_map.mpr ⟨(k, v), List.mem_filter.mpr ⟨Dict.mem_of_lookupIn hv, by simp [hs]⟩, rfl⟩

theorem nodup_keptKeys (h : (fields.map Prod.fst).Nodup) : (keptKeys skip fields).Nodup :=
  h.sublist (List.filter_sublist.map Prod.fst)

theorem keptKeys_perm (hx : (xs.map Prod.fst).Nodup) (h : deepEquals same skip (.obj xs) (.obj ys) = true) :
    (keptKeys skip xs).Perm (keptKeys skip ys) := by
  rw [deepEquals, Bool.and_eq_true, beq_iff_eq] at h
  have hsub : keptKeys skip xs ⊆ keptKeys skip ys := by
    intro k hk
    obtain ⟨hs, hv⟩ := mem_keptKeys.mp hk
    obtain ⟨v, hv⟩ := Option.isSome_iff_exists.mp hv
    obtain ⟨w, hw, -⟩ := fieldsEqual_get h.2 k v (Dict.mem_of_lookupIn hv) hs
    exact mem_keptKeys.mpr ⟨hs, Option.isSome_iff_exists.mpr ⟨w, hw⟩⟩
  apply (List.subperm_of_subset (nodup_keptKeys hx) hsub).perm_of_length_le
  simp [keptKeys, h.1]

/-! ## Comparison, path by path -/

def Avoids (skip : String → Bool) (path : List Step) : Prop := ∀ k, .key k ∈ path → skip k = false

theorem Avoids.tail {path : List Step} (h : Avoids skip (s :: path)) : Avoids skip path :=
  fun k hk => h k (List.mem_cons_of_mem _ hk)

def Alike (same : σ → σ → Bool) : Option (Shape σ) → Option (Shape σ) → Prop
  | none, none => True
  | some (.scalar s), some (.scalar t) => same s t = true
  | some (.arr m), some (.arr n) => m = n
  | some .obj, some .obj => True
  | _, _ => False

def SameUpTo (skip : String → Bool) (a b : Json σ) : Prop := ∀ path, Avoids skip path → a.shapeAt path = b.shapeAt path

theorem SameUpTo.refl (a : Json σ) : SameUpTo skip a a := fun _ _ => rfl

theorem SameUpTo.trans {c : Json σ} (h : SameUpTo skip a b) (h' : SameUpTo skip b c) : SameUpTo skip a c :=
  fun path hp => (h path hp).trans (h' path hp)

theorem child_of_deepEquals (ha : a.wellKeyed = true) (h : deepEquals same skip a b = true)
    (hs : ∀ k, s = .key k → skip k = false) :
    (a.child s = none ∧ b.child s = none) ∨
      ∃ v w, a.child s = some v ∧ b.child s = some w ∧ deepEquals same skip v w = true := by
  cases a <;> cases b <;> simp only [deepEquals, Bool.false_eq_true] at h
  case scalar.scalar => exact .inl ⟨by cases s <;> rfl, by cases s <;> rfl⟩
  case arr.arr xs ys =>
    cases s with
    | key k => exact .inl ⟨rfl, rfl⟩
    | index i =>
      have hlen := itemsEqual_length h
      by_cases hi : i < xs.length
      · have hx := List.getElem?_eq_getElem hi
        have hy := List.getElem?_eq_getElem (hlen ▸ hi)
        exact .inr ⟨_, _, hx, hy, itemsEqual_get h i _ _ hx hy⟩
      · exact .inl ⟨List.getElem?_eq_none (by omega), List.getElem?_eq_none (by omega)⟩
  case obj.obj xs ys =>
    cases s with
    | index i => exact .inl ⟨rfl, rfl⟩
    | key k =>
      have hskip := hs k rfl
      have hd : deepEquals same skip (.obj xs) (.obj ys) = true := by
        rw [deepEquals]
        exact h
      have hperm := keptKeys_perm (nodup_of_wellKeyed ha) hd
      cases hx : Dict.lookupIn k xs with
      | some v =>
        obtain ⟨w, hw, heq⟩ := fieldsEqual_get (Bool.and_eq_true _ _ ▸ h).2 k v (Dict.mem_of_lookupIn hx) hskip
        exact .inr ⟨v, w, hx, hw, heq⟩
      | none =>
        refine .inl ⟨hx, ?_⟩
        by_contra hy
        have hmem : k ∈ keptKeys skip ys := mem_keptKeys.mpr ⟨hskip, Option.isSome_iff_ne_none.mpr hy⟩
        have hmem' := (mem_keptKeys.mp (hperm.mem_iff.mpr hmem)).2
        rw [hx] at hmem'
        cases hmem'

theorem alike_of_deepEquals : ∀ (path : List Step) {a b : Json σ}, a.wellKeyed = true → b.wellKeyed = true →
    deepEquals same skip a b = true → Avoids skip path → Alike same (a.shapeAt path) (b.shapeAt path) := by
  intro path
  induction path with
  | nil =>
    intro a b _ _ h _
    cases a <;> cases b <;> simp only [deepEquals, Bool.false_eq_true] at h
    · exact h
    · exact itemsEqual_length h
    · trivial
  | cons s path ih =>
    intro a b ha hb h hp
    have hskip : ∀ k, s = .key k → skip k = false := fun k hk => hp k (hk ▸ List.mem_cons_self)
    rcases child_of_deepEquals ha h hskip with ⟨hx, hy⟩ | ⟨v, w, hx, hy, heq⟩
    · rw [shapeAt, shapeAt, hx, hy]
      trivial
    · rw [shapeAt, shapeAt, hx, hy]
      exact ih (wellKeyed_child ha hx) (wellKeyed_child hb hy) heq hp.tail

theorem SameUpTo.child {v w : Json σ} (h : SameUpTo skip a b) (hs : ∀ k, s = .key k → skip k = false)
    (hv : a.child s = some v) (hw : b.child s = some w) : SameUpTo skip v w := by
  intro path hp
  have hstep := h (s :: path) fun k hk => by
    rcases List.mem_cons.mp hk with hk | hk
    · exact hs k hk.symm
    · exact hp k hk
  rwa [shapeAt, shapeAt, hv, hw] at hstep

theorem SameUpTo.child_isSome (h : SameUpTo skip a b) (hs : ∀ k, s = .key k → skip k = false) :
    (a.child s).isSome = (b.child s).isSome := by
  have hstep := h [s] fun k hk => hs k (List.mem_singleton.mp hk).symm
  rw [shapeAt, shapeAt] at hstep
  cases hv : a.child s <;> cases hw : b.child s <;> simp [hv, hw] at hstep ⊢

theorem keptKeys_perm_of_sameUpTo (hx : (xs.map Prod.fst).Nodup) (hy : (ys.map Prod.fst).Nodup)
    (h : SameUpTo skip (.obj xs) (.obj ys)) : (keptKeys skip xs).Perm (keptKeys skip ys) := by
  apply (List.perm_ext_iff_of_nodup (nodup_keptKeys hx) (nodup_keptKeys hy)).mpr
  intro k
  rw [mem_keptKeys, mem_keptKeys]
  apply and_congr_right
  intro hs
  have hsome : (Dict.lookupIn k xs).isSome = (Dict.lookupIn k ys).isSome := h.child_isSome (s := .key k) fun k' he => by
    cases he
    exact hs
  rw [hsome]

mutual
theorem deepEquals_of_sameUpTo (hsame : ∀ x, same x x = true) :
    ∀ {a b : Json σ}, a.wellKeyed = true → b.wellKeyed = true → SameUpTo skip a b →
    deepEquals same skip a b = true
  | .scalar s, b, _, _, h => by
    have hroot := h [] (fun _ hk => nomatch hk)
    cases b with
    | scalar t =>
      cases hroot
      exact hsame s
    | arr items => cases hroot
    | obj fields => cases hroot
  | .arr xs, b, ha, hb, h => by
    have hroot := h [] (fun _ hk => nomatch hk)
    cases b with
    | scalar t => cases hroot
    | arr ys =>
      have hlen : xs.length = ys.length := by simpa [shape] using hroot
      rw [deepEquals]
      rw [wellKeyed] at ha hb
      refine itemsEqual_of_sameUpTo hsame ha hb hlen fun i x y hx hy => h.child (s := .index i) (fun k he => by cases he) hx hy
    | obj fields => cases hroot
  | .obj xs, b, ha, hb, h => by
    have hroot := h [] (fun _ hk => nomatch hk)
    cases b with
    | scalar t => cases hroot
    | arr ys => cases hroot
    | obj ys =>
      have hlen := (keptKeys_perm_of_sameUpTo (nodup_of_wellKeyed ha) (nodup_of_wellKeyed hb) h).length_eq
      rw [keptKeys, keptKeys, List.length_map, List.length_map] at hlen
      have hx := nodup_of_wellKeyed ha
      rw [deepEquals, hlen, beq_self_eq_true, Bool.true_and]
      rw [wellKeyed, Bool.and_eq_true] at ha hb
      refine fieldsEqual_of_sameUpTo hsame ha.2 hb.2 fun k v hm hs => ?_
      have hstep : ∀ k', Step.key k = .key k' → skip k' = false := by
        intro k' he
        cases he
        exact hs
      have hv := Dict.lookupIn_of_mem hx hm
      have hsome := h.child_isSome hstep
      rw [child, child, hv] at hsome
      obtain ⟨w, hw⟩ := Option.isSome_iff_exists.mp hsome.symm
      exact ⟨w, hw, h.child hstep hv hw⟩
theorem itemsEqual_of_sameUpTo (hsame : ∀ x, same x x = true) :
    ∀ {xs ys : List (Json σ)}, wellKeyedItems xs = true → wellKeyedItems ys = true →
    xs.length = ys.length → (∀ (i : Nat) x y, xs[i]? = some x → ys[i]? = some y → SameUpTo skip x y) →
    itemsEqual same skip xs ys = true
  | [], [], _, _, _, _ => rfl
  | x :: xs, y :: ys, hx, hy, hlen, h => by
    rw [wellKeyedItems, Bool.and_eq_true] at hx hy
    rw [itemsEqual, Bool.and_eq_true]
    constructor
    · exact deepEquals_of_sameUpTo hsame hx.1 hy.1 (h 0 x y rfl rfl)
    refine itemsEqual_of_sameUpTo hsame hx.2 hy.2 (by simpa using hlen) fun i x' y' hx' hy' => h (i + 1) x' y' ?_ ?_
    · simpa using hx'
    · simpa using hy'
theorem fieldsEqual_of_sameUpTo (hsame : ∀ x, same x x = true) :
    ∀ {xs ys : List (String × Json σ)}, wellKeyedFields xs = true → wellKeyedFields ys = true →
    (∀ k v, (k, v) ∈ xs → skip k = false → ∃ w, Dict.lookupIn k ys = some w ∧ SameUpTo skip v w) →
    fieldsEqual same skip xs ys = true
  | [], _, _, _, _ => by rw [fieldsEqual]
  | (k, v) :: xs, ys, hx, hy, h => by
    rw [wellKeyedFields, Bool.and_eq_true] at hx
    rw [fieldsEqual, Bool.and_eq_true]
    constructor
    · cases hs : skip k with
      | true => rfl
      | false =>
        obtain ⟨w, hw, hsame'⟩ := h k v (by simp) hs
        rw [Bool.false_or, hw]
        exact deepEquals_of_sameUpTo hsame hx.1 (wellKeyed_of_mem_fields hy k w (Dict.mem_of_lookupIn hw)) hsame'
    · exact fieldsEqual_of_sameUpTo hsame hx.2 hy fun k' v' hm => h k' v' (List.mem_cons_of_mem _ hm)
end

end

/-! ## Dropping keys, and reading scalars -/

section
variable (skip : String → Bool) (f : σ → τ)

mutual
def dropKeys : Json σ → Json σ
  | .scalar value => .scalar value
  | .arr items => .arr (dropKeysItems items)
  | .obj fields => .obj (dropKeysFields fields)
  termination_by structural v => v
def dropKeysItems : List (Json σ) → List (Json σ)
  | [] => []
  | v :: items => dropKeys v :: dropKeysItems items
  termination_by structural items => items
def dropKeysFields : List (String × Json σ) → List (String × Json σ)
  | [] => []
  | (k, v) :: fields => if skip k then dropKeysFields fields else (k, dropKeys v) :: dropKeysFields fields
  termination_by structural fields => fields
end

mutual
def mapScalar : Json σ → Json τ
  | .scalar value => .scalar (f value)
  | .arr items => .arr (mapScalarItems items)
  | .obj fields => .obj (mapScalarFields fields)
  termination_by structural v => v
def mapScalarItems : List (Json σ) → List (Json τ)
  | [] => []
  | v :: items => mapScalar v :: mapScalarItems items
  termination_by structural items => items
def mapScalarFields : List (String × Json σ) → List (String × Json τ)
  | [] => []
  | (k, v) :: fields => (k, mapScalar v) :: mapScalarFields fields
  termination_by structural fields => fields
end

end

variable {same : σ → σ → Bool} {skip : String → Bool} {f : σ → τ}

attribute [local simp] dropKeys dropKeysItems dropKeysFields mapScalar mapScalarItems mapScalarFields deepEquals itemsEqual fieldsEqual shapeAt

theorem lookupIn_dropKeysFields {k : String} (hs : skip k = false) : ∀ fields : List (String × Json σ),
    Dict.lookupIn k (dropKeysFields skip fields) = (Dict.lookupIn k fields).map (dropKeys skip)
  | [] => by simp [Dict.lookupIn]
  | (k', v) :: fields => by
    by_cases hk : k' = k
    · subst hk
      simp [Dict.lookupIn, hs]
    · cases hs' : skip k' <;> simp [Dict.lookupIn, hk, hs', lookupIn_dropKeysFields hs fields]

theorem length_dropKeysFields : ∀ fields : List (String × Json σ),
    (dropKeysFields skip fields).length = (fields.filter fun e => !skip e.1).length
  | [] => by simp
  | (k, v) :: fields => by cases hs : skip k <;> simp [hs, length_dropKeysFields fields]

mutual
theorem deepEquals_dropKeys : ∀ a b : Json σ,
    deepEquals same (fun _ => false) (a.dropKeys skip) (b.dropKeys skip) = deepEquals same skip a b
  | .scalar s, b => by cases b <;> simp
  | .arr xs, b => by
    cases b with
    | arr ys => simp [itemsEqual_dropKeys xs ys]
    | _ => simp
  | .obj xs, b => by
    cases b with
    | obj ys =>
      have hall : ∀ fields : List (String × Json σ), fields.filter (fun _ => !false) = fields := fun _ => by simp
      simp only [dropKeys, deepEquals, fieldsEqual_dropKeys xs ys, hall, length_dropKeysFields]
    | _ => simp
theorem itemsEqual_dropKeys : ∀ xs ys : List (Json σ),
    itemsEqual same (fun _ => false) (dropKeysItems skip xs) (dropKeysItems skip ys) = itemsEqual same skip xs ys
  | [], ys => by cases ys <;> simp
  | x :: xs, ys => by
    cases ys with
    | nil => simp
    | cons y ys => simp [deepEquals_dropKeys x y, itemsEqual_dropKeys xs ys]
theorem fieldsEqual_dropKeys : ∀ xs ys : List (String × Json σ),
    fieldsEqual same (fun _ => false) (dropKeysFields skip xs) (dropKeysFields skip ys) = fieldsEqual same skip xs ys
  | [], ys => by simp
  | (k, v) :: xs, ys => by
    cases hs : skip k with
    | true => simp [hs, fieldsEqual_dropKeys xs ys]
    | false =>
      rw [dropKeysFields, if_neg (by simp [hs]), fieldsEqual, fieldsEqual, fieldsEqual_dropKeys xs ys,
        lookupIn_dropKeysFields hs ys, hs]
      cases Dict.lookupIn k ys with
      | none => rfl
      | some w => simp [deepEquals_dropKeys v w]
end

theorem getElem?_mapScalarItems : ∀ (items : List (Json σ)) (i : Nat),
    (mapScalarItems f items)[i]? = (items[i]?).map (mapScalar f)
  | [], i => by simp
  | v :: items, 0 => by simp
  | v :: items, i + 1 => by simp [getElem?_mapScalarItems items i]

theorem lookupIn_mapScalarFields (k : String) : ∀ fields : List (String × Json σ),
    Dict.lookupIn k (mapScalarFields f fields) = (Dict.lookupIn k fields).map (mapScalar f)
  | [] => by simp [Dict.lookupIn]
  | (k', v) :: fields => by
    by_cases hk : k' = k <;> simp [Dict.lookupIn, hk, lookupIn_mapScalarFields k fields]

theorem child_mapScalar (v : Json σ) (s : Step) : (v.mapScalar f).child s = (v.child s).map (mapScalar f) := by
  cases v with
  | scalar value => cases s <;> simp [child]
  | arr items => cases s <;> simp [child, getElem?_mapScalarItems]
  | obj fields => cases s <;> simp [child, lookupIn_mapScalarFields]

def Shape.map (f : σ → τ) : Shape σ → Shape τ
  | .scalar value => .scalar (f value)
  | .arr length => .arr length
  | .obj => .obj

theorem length_mapScalarItems : ∀ items : List (Json σ), (mapScalarItems f items).length = items.length
  | [] => by simp
  | v :: items => by simp [length_mapScalarItems items]

theorem shape_mapScalar (v : Json σ) : (v.mapScalar f).shape = v.shape.map f := by
  cases v <;> simp [shape, Shape.map, length_mapScalarItems]

theorem shapeAt_mapScalar :
    ∀ (path : List Step) (v : Json σ), (v.mapScalar f).shapeAt path = (v.shapeAt path).map (Shape.map f)
  | [], v => by simp [shape_mapScalar]
  | s :: path, v => by
    rw [shapeAt, shapeAt, child_mapScalar, Option.bind_map, Option.map_bind]
    apply Option.bind_congr
    intro w _
    exact shapeAt_mapScalar path w

variable {a b : Json σ}

theorem SameUpTo.mapScalar (h : SameUpTo skip a b) (f : σ → τ) : SameUpTo skip (a.mapScalar f) (b.mapScalar f) := by
  intro path hp
  rw [shapeAt_mapScalar, shapeAt_mapScalar, h path hp]

theorem fst_mapScalarFields : ∀ fields : List (String × Json σ), (mapScalarFields f fields).map Prod.fst = fields.map Prod.fst
  | [] => by simp
  | (k, v) :: fields => by simp [fst_mapScalarFields fields]

mutual
theorem wellKeyed_mapScalar : ∀ v : Json σ, (v.mapScalar f).wellKeyed = v.wellKeyed
  | .scalar value => by simp
  | .arr items => by simp [wellKeyedItems_mapScalar items]
  | .obj fields => by simp [fst_mapScalarFields, wellKeyedFields_mapScalar fields]
theorem wellKeyedItems_mapScalar : ∀ items : List (Json σ), wellKeyedItems (mapScalarItems f items) = wellKeyedItems items
  | [] => by simp
  | v :: items => by simp [wellKeyed_mapScalar v, wellKeyedItems_mapScalar items]
theorem wellKeyedFields_mapScalar : ∀ fields : List (String × Json σ),
    wellKeyedFields (mapScalarFields f fields) = wellKeyedFields fields
  | [] => by simp
  | (k, v) :: fields => by simp [wellKeyed_mapScalar v, wellKeyedFields_mapScalar fields]
end

theorem deepEquals_eq_iff [DecidableEq σ] (ha : a.wellKeyed = true) (hb : b.wellKeyed = true) :
    deepEquals (fun x y => decide (x = y)) skip a b = true ↔ SameUpTo skip a b := by
  constructor
  · intro h path hp
    have halike := alike_of_deepEquals path ha hb h hp
    cases hx : a.shapeAt path with
    | none =>
      cases hy : b.shapeAt path with
      | none => rfl
      | some y => simp [hx, hy, Alike] at halike
    | some x =>
      cases hy : b.shapeAt path with
      | none => cases x <;> simp [hx, hy, Alike] at halike
      | some y => cases x <;> cases y <;> simp [hx, hy, Alike] at halike <;> simp [halike]
  · intro h
    exact deepEquals_of_sameUpTo (fun x => by simp) ha hb h

end Json

end Lib
