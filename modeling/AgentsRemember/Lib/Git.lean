import Mathlib.Data.Fintype.Basic
import Mathlib.Logic.Function.Basic

/-!
# Commits, branches and linked checkouts

A commit is its history and its tree. A repository has branches and several
linked checkouts, as `git worktree` has them: a checkout stands on a branch,
whose commit is then its own, or on a commit; no two stand on one branch. What
a merge makes of two histories, and what a rebase makes of the commits it
replays, is a parameter.
-/

namespace Lib

namespace Git

/-! ## Commits -/

inductive Commit (T : Type)
  | root (tree : T)
  | child (parent : Commit T) (tree : T)
  | merged (parent other : Commit T) (tree : T)
  deriving DecidableEq

section
variable {T : Type}

def Commit.tree : Commit T → T
  | .root t => t
  | .child _ t => t
  | .merged _ _ t => t

inductive Ancestor (a : Commit T) : Commit T → Prop
  | refl : Ancestor a a
  | child {p : Commit T} {t : T} : Ancestor a p → Ancestor a (.child p t)
  | parent {p q : Commit T} {t : T} : Ancestor a p → Ancestor a (.merged p q t)
  | other {p q : Commit T} {t : T} : Ancestor a q → Ancestor a (.merged p q t)

variable {a b c : Commit T}

theorem Ancestor.trans (h : Ancestor a b) (h' : Ancestor b c) : Ancestor a c := by
  induction h' with
  | refl => exact h
  | child _ ih => exact .child ih
  | parent _ ih => exact .parent ih
  | other _ ih => exact .other ih

def Commit.size : Commit T → Nat
  | .root _ => 1
  | .child p _ => p.size + 1
  | .merged p q _ => p.size + q.size + 1

theorem Ancestor.size_le (h : Ancestor a b) : a = b ∨ a.size < b.size := by
  induction h with
  | refl => exact .inl rfl
  | child _ ih =>
    right
    rcases ih with rfl | h <;> simp only [Commit.size] <;> omega
  | parent _ ih =>
    right
    rcases ih with rfl | h <;> simp only [Commit.size] <;> omega
  | other _ ih =>
    right
    rcases ih with rfl | h <;> simp only [Commit.size] <;> omega

theorem Ancestor.antisymm (h : Ancestor a b) (h' : Ancestor b a) : a = b := by
  rcases h.size_le with rfl | hlt
  · rfl
  rcases h'.size_le with rfl | hlt'
  · rfl
  · omega

def isAncestor [DecidableEq T] (a : Commit T) : Commit T → Bool
  | .root t => decide (a = .root t)
  | .child p t => decide (a = .child p t) || isAncestor a p
  | .merged p q t => decide (a = .merged p q t) || isAncestor a p || isAncestor a q

theorem isAncestor_iff [DecidableEq T] : isAncestor a c = true ↔ Ancestor a c := by
  constructor
  · intro h
    induction c with
    | root t =>
      simp only [isAncestor, decide_eq_true_eq] at h
      rw [h]
      exact .refl
    | child p t ih =>
      simp only [isAncestor, Bool.or_eq_true, decide_eq_true_eq] at h
      rcases h with h | h
      · rw [h]
        exact .refl
      · exact .child (ih h)
    | merged p q t ihp ihq =>
      simp only [isAncestor, Bool.or_eq_true, decide_eq_true_eq] at h
      rcases h with (h | h) | h
      · rw [h]
        exact .refl
      · exact .parent (ihp h)
      · exact .other (ihq h)
  · intro h
    induction h with
    | refl => cases a <;> simp [isAncestor]
    | child _ ih => simp [isAncestor, ih]
    | parent _ ih => simp [isAncestor, ih]
    | other _ ih => simp [isAncestor, ih]

def stack (onto : Commit T) (trees : List T) : Commit T := trees.foldl .child onto

theorem ancestor_stack (trees : List T) : ∀ onto : Commit T, Ancestor onto (stack onto trees) := by
  induction trees with
  | nil => intro onto; exact .refl
  | cons t trees ih => intro onto; exact (Ancestor.child .refl).trans (ih (.child onto t))

end

/-! ## Repositories -/

/-- What git makes of histories: the tree of a merge, or none on a conflict; the trees of the commits a rebase
replays, and whether it stopped at a conflict; and the files of a checkout taken from one tree to another. -/
structure Tool (T : Type) where
  merge : Commit T → Commit T → Option T
  replay : Commit T → Commit T → Commit T → List T × Bool
  carry : T → T → T → T
  carry_clean : ∀ a b, carry a b a = b

/-- What a checkout stands on: a branch, a commit alone, or the commit where a rebase stopped, with the branch and the
commit that the rebase began at. -/
inductive Standing (T : Type)
  | on (branch : String)
  | off
  | rebasing (branch : Option String) (commit : Commit T)

def Standing.branch {T : Type} : Standing T → Option String
  | .on b => some b
  | _ => none

structure Checkout (T : Type) where
  standing : Standing T
  head : Commit T
  files : T
  merging : Bool

def Checkout.branch {T : Type} (co : Checkout T) : Option String := co.standing.branch

structure Repo (ι T : Type) where
  branches : String → Option (Commit T)
  checkout : ι → Checkout T
  points : ∀ i b, (checkout i).branch = some b → branches b = some (checkout i).head
  apart : ∀ i j b, (checkout i).branch = some b → (checkout j).branch = some b → i = j

def Repo.Free {ι T : Type} (r : Repo ι T) (i : ι) (b : Option String) : Prop :=
  ∀ j, j ≠ i → ∀ b', b = some b' → (r.checkout j).branch ≠ some b'

section
variable {ι T : Type}

def Repo.head (r : Repo ι T) (i : ι) : Commit T := (r.checkout i).head

def Repo.current (r : Repo ι T) (i : ι) : Option String := (r.checkout i).branch

def Repo.isClean [DecidableEq T] (r : Repo ι T) (i : ι) : Bool := (r.checkout i).files = (r.checkout i).head.tree

theorem Repo.free_current (r : Repo ι T) (i : ι) : r.Free i (r.checkout i).branch :=
  fun j hj b h hb => hj (r.apart j i b hb h)

theorem Repo.free_none (r : Repo ι T) (i : ι) : r.Free i none := fun _ _ _ h => nomatch h

theorem Repo.free_absent (r : Repo ι T) (i : ι) {b : String} (h : r.branches b = none) : r.Free i (some b) := by
  intro j _ b' hb' hj
  cases hb'
  rw [r.points j b hj] at h
  cases h

end

section
variable {ι T : Type} [DecidableEq ι]

def Repo.put (r : Repo ι T) (i : ι) (co : Checkout T) (h : r.Free i co.branch) : Repo ι T where
  branches := co.branch.elim r.branches fun b => Function.update r.branches b (some co.head)
  checkout := Function.update r.checkout i co
  points := by
    intro j b hb
    by_cases hj : j = i
    · subst hj
      rw [Function.update_self] at hb ⊢
      rw [hb, Option.elim_some, Function.update_self]
    rw [Function.update_of_ne hj] at hb ⊢
    cases hc : co.branch with
    | none => exact r.points j b hb
    | some c =>
      have hne : b ≠ c := fun e => h j hj c hc (e ▸ hb)
      rw [Option.elim_some, Function.update_of_ne hne]
      exact r.points j b hb
  apart := by
    intro j k b hj hk
    by_cases hji : j = i
    · subst hji
      rw [Function.update_self] at hj
      by_cases hki : k = j
      · exact hki.symm
      · rw [Function.update_of_ne hki] at hk
        exact absurd hk (h k hki b hj)
    rw [Function.update_of_ne hji] at hj
    by_cases hki : k = i
    · subst hki
      rw [Function.update_self] at hk
      exact absurd hj (h j hji b hk)
    · rw [Function.update_of_ne hki] at hk
      exact r.apart j k b hj hk

variable (r : Repo ι T) (i : ι)

def Repo.moveHead (c : Commit T) (files : T) : Repo ι T :=
  r.put i { r.checkout i with head := c, files := files } (r.free_current i)

def Repo.setFiles (files : T) : Repo ι T := r.put i { r.checkout i with files := files } (r.free_current i)

def Repo.setMerging (merging : Bool) : Repo ι T :=
  r.put i { r.checkout i with merging := merging } (r.free_current i)

/-! ## Commands -/

def Repo.commit : Repo ι T := r.moveHead i (.child (r.head i) (r.checkout i).files) (r.checkout i).files

def Repo.resetHard (c : Commit T) : Repo ι T := (r.moveHead i c c.tree).setMerging i false

variable (G : Tool T)

def Repo.advance (c : Commit T) : Repo ι T :=
  r.moveHead i c (G.carry (r.head i).tree c.tree (r.checkout i).files)

/-- `merge --ff-only`: none when it is refused. -/
def Repo.mergeFastForward [DecidableEq T] (c : Commit T) : Option (Repo ι T) :=
  if isAncestor c (r.head i) then some r else if isAncestor (r.head i) c then some (r.advance i G c) else none

/-- `merge --no-edit`: whether it went through; on a conflict the checkout is left with the merge under way. -/
def Repo.mergeCommit [DecidableEq T] (c : Commit T) : Bool × Repo ι T :=
  if (r.checkout i).merging then (false, r)
  else
    match r.mergeFastForward i G c with
    | some s => (true, s)
    | none =>
      match G.merge (r.head i) c with
      | some t => (true, r.advance i G (.merged (r.head i) c t))
      | none => (false, r.setMerging i true)

def Repo.mergeAbort : Repo ι T := r.setMerging i false

/-- `rebase --onto`: whether it went through; at a conflict the checkout is left where it stopped, off its branch. -/
def Repo.rebase (onto upstream : Commit T) : Bool × Repo ι T :=
  match (r.checkout i).standing with
  | .rebasing .. => (false, r)
  | _ =>
    let (trees, stopped) := G.replay onto upstream (r.head i)
    let c := stack onto trees
    if stopped then
      (false, r.put i ⟨.rebasing (r.current i) (r.head i), c, c.tree, false⟩ (r.free_none i))
    else (true, r.advance i G c)

def Repo.checkoutNew (b : String) (c : Commit T) : Option (Repo ι T) :=
  if h : r.branches b = none then
    let co := r.checkout i
    some (r.put i { co with standing := .on b, head := c, files := G.carry co.head.tree c.tree co.files } (r.free_absent i h))
  else none

variable [Fintype ι]

instance Repo.decidableFree (b : Option String) : Decidable (r.Free i b) :=
  match b with
  | none => isTrue (r.free_none i)
  | some b => decidable_of_iff (∀ j, j ≠ i → (r.checkout j).branch ≠ some b)
      ⟨fun h j hj b' hb' => by cases hb'; exact h j hj, fun h j hj => h j hj b rfl⟩

def Repo.rebaseAbort : Option (Repo ι T) :=
  match (r.checkout i).standing with
  | .rebasing b c =>
    let co : Checkout T := ⟨b.elim .off .on, c, c.tree, false⟩
    if h : r.Free i co.branch then some (r.put i co h) else none
  | _ => none

def Repo.checkoutForce (b : String) : Option (Repo ι T) :=
  match r.branches b with
  | none => none
  | some c => if h : r.Free i (some b) then some (r.put i ⟨.on b, c, c.tree, false⟩ h) else none

def Repo.deleteBranch (b : String) : Option (Repo ι T) :=
  if h : r.branches b ≠ none ∧ ∀ j, (r.checkout j).branch ≠ some b then
    some { r with
      branches := Function.update r.branches b none
      points := fun j b' hb' => by
        have hne : b' ≠ b := fun e => h.2 j (e ▸ hb')
        rw [Function.update_of_ne hne]
        exact r.points j b' hb' }
  else none

end

/-! ## What the branches and the checkouts stand at -/

structure Refs (ι T : Type) where
  branches : String → Option (Commit T)
  place : ι → Option String × Commit T

section
variable {ι T : Type}

def Repo.refs (r : Repo ι T) : Refs ι T := ⟨r.branches, fun i => (r.current i, r.head i)⟩

variable {r s : Repo ι T} {i : ι} {G : Tool T} {c : Commit T}

theorem refs_eq (h : r.refs = s.refs) :
    r.branches = s.branches ∧ ∀ i, r.current i = s.current i ∧ r.head i = s.head i := by
  obtain ⟨hb, hp⟩ := Refs.mk.inj h
  exact ⟨hb, fun i => Prod.mk.inj (congrFun hp i)⟩

variable [DecidableEq ι]

def Refs.put (r : Refs ι T) (i : ι) (b : Option String) (c : Commit T) : Refs ι T :=
  ⟨b.elim r.branches fun b => Function.update r.branches b (some c), Function.update r.place i (b, c)⟩

@[simp] theorem refs_put (r : Repo ι T) (i : ι) (co : Checkout T) (h) :
    (r.put i co h).refs = r.refs.put i co.branch co.head := by
  unfold Repo.refs Refs.put Repo.put Repo.current Repo.head
  congr 1
  funext j
  by_cases hj : j = i
  · subst hj
    simp
  · simp [Function.update_of_ne hj]

theorem Refs.put_self (r : Repo ι T) (i : ι) : r.refs.put i (r.current i) (r.head i) = r.refs := by
  unfold Refs.put Repo.refs
  congr 1
  · cases hb : r.current i with
    | none => rfl
    | some b =>
      rw [Option.elim_some, Function.update_eq_self_iff]
      exact (r.points i b hb).symm
  · rw [Function.update_eq_self_iff]

@[simp] theorem refs_moveHead (r : Repo ι T) (i : ι) (c : Commit T) (files : T) :
    (r.moveHead i c files).refs = r.refs.put i (r.current i) c := refs_put ..

@[simp] theorem refs_setFiles (r : Repo ι T) (i : ι) (files : T) : (r.setFiles i files).refs = r.refs :=
  (refs_put ..).trans (Refs.put_self r i)

@[simp] theorem refs_setMerging (r : Repo ι T) (i : ι) (merging : Bool) : (r.setMerging i merging).refs = r.refs :=
  (refs_put ..).trans (Refs.put_self r i)

@[simp] theorem head_moveHead (r : Repo ι T) (i : ι) (c : Commit T) (files : T) : (r.moveHead i c files).head i = c := by
  simp [Repo.moveHead, Repo.head, Repo.put]

@[simp] theorem head_advance (r : Repo ι T) (i : ι) (G : Tool T) (c : Commit T) : (r.advance i G c).head i = c :=
  head_moveHead r i c _

theorem refs_mergeAbort (r : Repo ι T) (i : ι) : (r.mergeAbort i).refs = r.refs := refs_setMerging r i false

/-! ## Merges -/

variable [DecidableEq T]

theorem head_mergeFastForward (h : r.mergeFastForward i G c = some s) :
    Ancestor c (s.head i) ∧ Ancestor (r.head i) (s.head i) := by
  unfold Repo.mergeFastForward at h
  by_cases hc : isAncestor c (r.head i) = true
  · rw [if_pos hc] at h
    cases h
    exact ⟨isAncestor_iff.mp hc, .refl⟩
  rw [if_neg hc] at h
  by_cases hc' : isAncestor (r.head i) c = true
  · rw [if_pos hc'] at h
    cases h
    rw [head_advance]
    exact ⟨.refl, isAncestor_iff.mp hc'⟩
  · rw [if_neg hc'] at h
    cases h

theorem head_mergeCommit (h : (r.mergeCommit i G c).1 = true) :
    Ancestor c ((r.mergeCommit i G c).2.head i) ∧ Ancestor (r.head i) ((r.mergeCommit i G c).2.head i) := by
  unfold Repo.mergeCommit at h ⊢
  by_cases hm : (r.checkout i).merging = true
  · rw [if_pos hm] at h
    cases h
  rw [if_neg hm] at h ⊢
  cases hf : r.mergeFastForward i G c with
  | some s => exact head_mergeFastForward hf
  | none =>
    simp only [hf] at h ⊢
    cases ht : G.merge (r.head i) c with
    | some t =>
      rw [head_advance]
      exact ⟨.other .refl, .parent .refl⟩
    | none =>
      simp only [ht] at h
      cases h

theorem refs_mergeCommit (h : (r.mergeCommit i G c).1 = false) : (r.mergeCommit i G c).2.refs = r.refs := by
  unfold Repo.mergeCommit at h ⊢
  by_cases hm : (r.checkout i).merging = true
  · rw [if_pos hm]
  rw [if_neg hm] at h ⊢
  cases hf : r.mergeFastForward i G c with
  | some s =>
    simp only [hf] at h
    cases h
  | none =>
    simp only [hf] at h ⊢
    cases ht : G.merge (r.head i) c with
    | some t =>
      simp only [ht] at h
      cases h
    | none => exact refs_setMerging r i true

theorem refs_mergeFastForward (h : r.mergeFastForward i G c = some s) :
    s.refs = r.refs.put i (r.current i) (s.head i) := by
  unfold Repo.mergeFastForward at h
  by_cases hc : isAncestor c (r.head i) = true
  · rw [if_pos hc] at h
    cases h
    exact (Refs.put_self r i).symm
  rw [if_neg hc] at h
  by_cases hc' : isAncestor (r.head i) c = true
  · rw [if_pos hc'] at h
    cases h
    rw [head_advance]
    exact refs_moveHead r i c _
  · rw [if_neg hc'] at h
    cases h

theorem mergeFastForward_arrives (h : r.mergeFastForward i G c = some s) (hc : Ancestor (r.head i) c) :
    s.head i = c ∧ (r.isClean i = true → (s.checkout i).files = c.tree) := by
  unfold Repo.mergeFastForward at h
  by_cases hback : isAncestor c (r.head i) = true
  · rw [if_pos hback] at h
    cases h
    have heq : r.head i = c := hc.antisymm (isAncestor_iff.mp hback)
    refine ⟨heq, fun hclean => ?_⟩
    rw [← heq]
    exact of_decide_eq_true hclean
  rw [if_neg hback, if_pos (isAncestor_iff.mpr hc)] at h
  cases h
  refine ⟨head_advance r i G c, fun hclean => ?_⟩
  have hfiles : (r.checkout i).files = (r.head i).tree := of_decide_eq_true hclean
  simp [Repo.advance, Repo.moveHead, Repo.put, hfiles, G.carry_clean]

end

/-! ## Undoing -/

variable {ι T : Type}

variable {r s : Repo ι T} {R : Refs ι T} {i j : ι} {b n : String} {c : Commit T}

theorem branch_of_put [DecidableEq ι] (h : r.refs = R.put i (some b) c) : r.branches b = some c := by
  have hbr : r.branches b = (R.put i (some b) c).branches b := congrFun (congrArg Refs.branches h) b
  rw [hbr]
  simp [Refs.put]

theorem current_eq (h : r.refs = R) (i : ι) : r.current i = (R.place i).1 := by
  rw [← h]
  rfl

theorem head_eq (h : r.refs = R) (i : ι) : r.head i = (R.place i).2 := by
  rw [← h]
  rfl

theorem standing_of_current (h : r.current i = some b) : (r.checkout i).standing = .on b := by
  unfold Repo.current Checkout.branch at h
  cases hs : (r.checkout i).standing with
  | on b' =>
    rw [hs] at h
    cases h
    rfl
  | off =>
    rw [hs] at h
    cases h
  | rebasing b' c =>
    rw [hs] at h
    cases h

theorem deleteBranch_idle [Fintype ι] (hb : r.branches b ≠ none) (hidle : ∀ j, r.current j ≠ some b) :
    ∃ s, r.deleteBranch b = some s ∧ s.refs = ⟨Function.update r.branches b none, r.refs.place⟩ :=
  ⟨_, dif_pos ⟨hb, hidle⟩, rfl⟩

variable [DecidableEq ι]

theorem Refs.put_put (R : Refs ι T) (i : ι) {b b' : Option String} (c c' : Commit T) (h : b = none ∨ b = b') :
    (R.put i b c).put i b' c' = R.put i b' c' := by
  unfold Refs.put
  rcases h with rfl | rfl
  · simp
  · cases b <;> simp

theorem Refs.place_put (R : Refs ι T) (i : ι) (b : Option String) (c : Commit T) : (R.put i b c).place i = (b, c) := by
  simp [Refs.put]

theorem Refs.place_put_ne (R : Refs ι T) (b : Option String) (c : Commit T) (h : j ≠ i) :
    (R.put i b c).place j = R.place j := by
  simp [Refs.put, Function.update_of_ne h]

theorem checkout_put_ne (r : Repo ι T) (co : Checkout T) (h) (hj : j ≠ i) :
    (r.put i co h).checkout j = r.checkout j := Function.update_of_ne hj ..

theorem checkout_setFiles_ne (r : Repo ι T) (files : T) (hj : j ≠ i) :
    (r.setFiles i files).checkout j = r.checkout j := Function.update_of_ne hj ..

theorem checkout_commit_ne (r : Repo ι T) (hj : j ≠ i) : (r.commit i).checkout j = r.checkout j :=
  Function.update_of_ne hj ..

theorem refs_resetHard (r : Repo ι T) (i : ι) (c : Commit T) : (r.resetHard i c).refs = r.refs.put i (r.current i) c :=
  (refs_setMerging ..).trans (refs_moveHead ..)

theorem refs_reset_moved (h : s.refs = r.refs.put i (r.current i) c) : (s.resetHard i (r.head i)).refs = r.refs := by
  rw [refs_resetHard, current_eq h i, h, Refs.place_put, Refs.put_put _ _ _ _ (.inr rfl), Refs.put_self]

theorem rebase_cases (r : Repo ι T) (i : ι) (G : Tool T) (onto upstream : Commit T) :
    (∃ s c, r.rebase i G onto upstream = (true, s) ∧ s.refs = r.refs.put i (r.current i) c) ∨
    (∃ s c, r.rebase i G onto upstream = (false, s) ∧ s.refs = r.refs.put i none c ∧ Ancestor onto c ∧
      (s.checkout i).standing = .rebasing (r.current i) (r.head i)) ∨
    r.rebase i G onto upstream = (false, r) := by
  unfold Repo.rebase
  cases hs : (r.checkout i).standing with
  | rebasing b c => exact .inr (.inr rfl)
  | _ =>
    simp only
    by_cases hstop : (G.replay onto upstream (r.head i)).2 = true
    · rw [if_pos hstop]
      refine .inr (.inl ⟨_, _, rfl, refs_put .., ancestor_stack _ _, ?_⟩)
      simp [Repo.put]
    · rw [if_neg hstop]
      exact .inl ⟨_, _, rfl, refs_moveHead ..⟩

theorem rebase_checkout_ne (r : Repo ι T) (G : Tool T) (onto upstream : Commit T) (h : j ≠ i) :
    (r.rebase i G onto upstream).2.checkout j = r.checkout j := by
  unfold Repo.rebase
  cases hs : (r.checkout i).standing with
  | rebasing b c => rfl
  | _ =>
    simp only
    split
    · exact Function.update_of_ne h ..
    · exact Function.update_of_ne h ..

theorem checkoutNew_some {G : Tool T} (h : r.checkoutNew i G b c = some s) :
    r.branches b = none ∧ s.refs = r.refs.put i (some b) c ∧ ∀ j, j ≠ i → s.checkout j = r.checkout j := by
  unfold Repo.checkoutNew at h
  by_cases hb : r.branches b = none
  · rw [dif_pos hb] at h
    cases h
    exact ⟨hb, refs_put .., fun j hj => checkout_put_ne r _ _ hj⟩
  · rw [dif_neg hb] at h
    cases h

variable [Fintype ι]

theorem rebaseAbort_on (h : r.current i = some b) : r.rebaseAbort i = none := by
  unfold Repo.rebaseAbort
  rw [standing_of_current h]

theorem rebaseAbort_rebasing (h : (r.checkout i).standing = .rebasing (some b) c) (hfree : r.Free i (some b)) :
    ∃ s, r.rebaseAbort i = some s ∧ s.refs = r.refs.put i (some b) c := by
  unfold Repo.rebaseAbort
  rw [h]
  exact ⟨_, dif_pos hfree, refs_put ..⟩

theorem checkoutForce_free (hb : r.branches b = some c) (hfree : r.Free i (some b)) :
    ∃ s, r.checkoutForce i b = some s ∧ s.refs = r.refs.put i (some b) c := by
  unfold Repo.checkoutForce
  simp only [hb]
  exact ⟨_, dif_pos hfree, refs_put ..⟩

inductive Strayed (r : Repo ι T) (i : ι) (b : String) (s : Repo ι T) : Prop
  | along (c : Commit T) : s.refs = r.refs.put i (some b) c → Strayed r i b s
  | stopped (c d : Commit T) : s.refs = (r.refs.put i (some b) c).put i none d →
      (s.checkout i).standing = .rebasing (some b) c → Strayed r i b s

omit [DecidableEq ι] [Fintype ι] in
theorem free_of_refs (hs : s.refs = R) (hR : ∀ j, j ≠ i → R.place j = r.refs.place j) (h : r.Free i (some b)) :
    s.Free i (some b) := by
  intro j hj b' hb' hcur
  refine h j hj b' hb' ?_
  have heq : s.current j = r.current j := by
    rw [current_eq hs, hR j hj]
    rfl
  exact heq.symm.trans hcur

theorem Strayed.abort (hfree : r.Free i (some b)) (h : Strayed r i b s) :
    ∃ c, ((s.rebaseAbort i).getD s).refs = r.refs.put i (some b) c := by
  cases h with
  | along c h =>
    refine ⟨c, ?_⟩
    have hcur : s.current i = some b := by rw [current_eq h, Refs.place_put]
    rw [rebaseAbort_on hcur]
    exact h
  | stopped c d h hst =>
    have hplace : ∀ j, j ≠ i → ((r.refs.put i (some b) c).put i none d).place j = r.refs.place j := by
      intro j hj
      rw [Refs.place_put_ne _ _ _ hj, Refs.place_put_ne _ _ _ hj]
    obtain ⟨t, ht, hrefs⟩ := rebaseAbort_rebasing hst (free_of_refs h hplace hfree)
    refine ⟨c, ?_⟩
    rw [ht, Option.getD_some, hrefs, h, Refs.put_put _ _ _ _ (.inl rfl), Refs.put_put _ _ _ _ (.inr rfl)]

theorem Strayed.reset (hb : r.current i = some b) (h : Strayed r i b s) :
    (((s.rebaseAbort i).getD s).resetHard i (r.head i)).refs = r.refs := by
  have hfree : r.Free i (some b) := hb ▸ r.free_current i
  obtain ⟨c, hc⟩ := h.abort hfree
  refine refs_reset_moved (c := c) ?_
  rw [hc, hb]

omit [Fintype ι] in
theorem Refs.put_return (hb : r.current i = some b) (hn : r.branches n = none) (hne : b ≠ n) :
    (⟨Function.update ((r.refs.put i (some n) c).put i (some b) (r.head i)).branches n none,
      ((r.refs.put i (some n) c).put i (some b) (r.head i)).place⟩ : Refs ι T) = r.refs := by
  unfold Refs.put Repo.refs
  congr 1
  · funext x
    by_cases hx : x = n
    · subst hx
      simp [hn]
    by_cases hxb : x = b
    · subst hxb
      simp [Function.update_of_ne hx, r.points i x hb, Repo.head]
    · simp [Function.update_of_ne hx, Function.update_of_ne hxb]
  · simp only [Function.update_idem, Function.update_eq_self_iff, hb]

theorem Strayed.leave (hb : r.current i = some b) (hn : r.branches n = none) (h : s.refs = r.refs.put i (some n) c) :
    ∃ t, s.checkoutForce i b = some t ∧ ∃ u, (t.resetHard i (r.head i)).deleteBranch n = some u ∧ u.refs = r.refs ∧
      (t.resetHard i (r.head i)).branches n ≠ none := by
  have hne : b ≠ n := by
    rintro rfl
    rw [r.points i b hb] at hn
    cases hn
  have hplace : ∀ j, j ≠ i → (r.refs.put i (some n) c).place j = r.refs.place j :=
    fun j hj => Refs.place_put_ne _ _ _ hj
  have hat : s.branches b = some (r.head i) := by
    have hbr : s.branches = (r.refs.put i (some n) c).branches := congrArg Refs.branches h
    rw [hbr]
    simp only [Refs.put, Option.elim_some, Function.update_of_ne hne]
    exact r.points i b hb
  obtain ⟨t, ht, hrefs⟩ := checkoutForce_free hat (free_of_refs h hplace (hb ▸ r.free_current i))
  have hreset : (t.resetHard i (r.head i)).refs = (r.refs.put i (some n) c).put i (some b) (r.head i) := by
    rw [refs_resetHard, current_eq hrefs, hrefs, Refs.place_put, Refs.put_put _ _ _ _ (.inr rfl), h]
  have hthere : (t.resetHard i (r.head i)).branches n ≠ none := by
    have hbr : (t.resetHard i (r.head i)).branches n = _ := congrFun (congrArg Refs.branches hreset) n
    have hsome : ((r.refs.put i (some n) c).put i (some b) (r.head i)).branches n = some c := by
      simp [Refs.put, Function.update_of_ne (Ne.symm hne)]
    rw [hbr, hsome]
    exact fun h => nomatch h
  have hidle : ∀ j, (t.resetHard i (r.head i)).current j ≠ some n := by
    intro j hj
    rw [current_eq hreset] at hj
    by_cases hji : j = i
    · subst hji
      rw [Refs.place_put] at hj
      exact hne (Option.some.inj hj)
    rw [Refs.place_put_ne _ _ _ hji, Refs.place_put_ne _ _ _ hji] at hj
    rw [r.points j n hj] at hn
    cases hn
  obtain ⟨u, hu, hurefs⟩ := deleteBranch_idle hthere hidle
  refine ⟨t, ht, u, hu, ?_, hthere⟩
  rw [hurefs]
  have hbr : (t.resetHard i (r.head i)).branches = _ := congrArg Refs.branches hreset
  have hpl : (t.resetHard i (r.head i)).refs.place = _ := congrArg Refs.place hreset
  rw [hbr, hpl]
  exact Refs.put_return hb hn hne

end Git

end Lib
