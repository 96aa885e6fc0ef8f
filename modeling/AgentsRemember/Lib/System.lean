import Mathlib.Data.List.Basic

/-!
# State machines and their runs

`System.step s i` is the state after action `i`, if `i` is possible in `s`; a
nondeterministic machine chooses through its actions. `Steps M ok s t` is a run
from `s` to `t` whose every step meets the condition `ok` on the state before
it and the action.
-/

namespace Lib

structure System (σ ι : Type) where
  init : σ
  step : σ → ι → Option σ

variable {σ ι : Type} (M : System σ ι)

inductive Steps (ok : σ → ι → Prop) (s : σ) : σ → Prop
  | refl : Steps ok s s
  | tail {t u : σ} {i : ι} : Steps ok s t → ok t i → M.step t i = some u → Steps ok s u

def always (_ : σ) (_ : ι) : Prop := True

def Reachable (ok : σ → ι → Prop) (s : σ) : Prop := Steps M ok M.init s

variable {M} {ok ok' : σ → ι → Prop}

variable {s t u : σ} {I : σ → Prop} {is : List ι}

theorem Steps.trans (h : Steps M ok s t) (h' : Steps M ok t u) : Steps M ok s u := by
  induction h' with
  | refl => exact h
  | tail _ hok hs ih => exact .tail ih hok hs

theorem Steps.mono (hm : ∀ s i, ok s i → ok' s i) (h : Steps M ok s t) : Steps M ok' s t := by
  induction h with
  | refl => exact .refl
  | tail _ hok hs ih => exact .tail ih (hm _ _ hok) hs

theorem Steps.always (h : Steps M ok s t) : Steps M Lib.always s t := h.mono fun _ _ _ => trivial

theorem Reachable.steps (h : Reachable M ok s) (h' : Steps M ok s t) : Reachable M ok t := h.trans h'

theorem Reachable.invariant (h0 : I M.init) (hs : ∀ s i t, I s → ok s i → M.step s i = some t → I t)
    (h : Reachable M ok s) : I s := by
  induction h with
  | refl => exact h0
  | tail _ hok hst ih => exact hs _ _ _ ih hok hst

/-- **Absorption rule.** What every allowed step keeps, from states of the invariant, stays for the rest of a run. -/
theorem Steps.stays {P : σ → Prop} (hI : ∀ s i t, I s → ok s i → M.step s i = some t → I t)
    (hP : ∀ s i t, I s → P s → ok s i → M.step s i = some t → P t) (h : Steps M ok s t) (hs : I s) (hp : P s) :
    I t ∧ P t := by
  induction h with
  | refl => exact ⟨hs, hp⟩
  | tail _ hok hst ih => exact ⟨hI _ _ _ ih.1 hok hst, hP _ _ _ ih.1 ih.2 hok hst⟩

theorem Steps.simulated {τ κ : Type} {N : System τ κ} {f : σ → τ} {I : τ → Prop} {okN : σ → ι → τ → κ → Prop}
    (hsim : ∀ s i t, I (f s) → M.step s i = some t → Steps N (okN s i) (f s) (f t))
    (hI : ∀ s i v k w, I (f s) → ok s i → I v → okN s i v k → N.step v k = some w → I w) (h : Steps M ok s t)
    (hs : I (f s)) : I (f t) := by
  induction h with
  | refl => exact hs
  | @tail t u i _ hok hst ih =>
    have hrun : ∀ {w}, Steps N (okN t i) (f t) w → I w := by
      intro w hw
      induction hw with
      | refl => exact ih
      | tail _ hk hw ihw => exact hI t i _ _ _ ih hok ihw hk hw
    exact hrun (hsim t i u ih hst)

/-! ## Executing a list of actions -/

variable (M)

def runFrom (s : σ) : List ι → Option σ
  | [] => some s
  | i :: is => (M.step s i).bind fun t => runFrom t is

variable {M}

theorem runFrom_append (is js : List ι) : ∀ s : σ, runFrom M s (is ++ js) = (runFrom M s is).bind fun t => runFrom M t js := by
  induction is with
  | nil => exact fun _ => rfl
  | cons i is ih =>
    intro s
    rw [List.cons_append, runFrom, runFrom, Option.bind_assoc]
    exact Option.bind_congr fun t _ => ih t

theorem Steps.head {i : ι} (hok : ok s i) (hs : M.step s i = some t) (h : Steps M ok t u) :
    Steps M ok s u := (Steps.tail .refl hok hs).trans h

theorem steps_of_runFrom : ∀ {s t : σ}, (∀ i ∈ is, ∀ u, ok u i) → runFrom M s is = some t → Steps M ok s t := by
  induction is with
  | nil => intro s t _ h; cases h; exact .refl
  | cons i is ih =>
    intro s t hok h
    obtain ⟨u, hu, hr⟩ := Option.bind_eq_some_iff.mp h
    exact .head (hok i (by simp) s) hu (ih (fun j hj => hok j (List.mem_cons_of_mem _ hj)) hr)

theorem reachable_of_runFrom (h : runFrom M M.init is = some s) :
    Reachable M Lib.always s := steps_of_runFrom (fun _ _ _ => trivial) h

/-- A list of actions, each run only where its condition holds. -/
def checkedRun (M : System σ ι) (ok : σ → ι → Prop) [∀ s i, Decidable (ok s i)] (s : σ) : List ι → Option σ
  | [] => some s
  | i :: is => if ok s i then (M.step s i).bind fun t => checkedRun M ok t is else none

theorem steps_of_checkedRun [∀ s i, Decidable (ok s i)] : ∀ {s t : σ}, checkedRun M ok s is = some t →
    Steps M ok s t := by
  induction is with
  | nil =>
    intro s t h
    cases h
    exact .refl
  | cons i is ih =>
    intro s t h
    rw [checkedRun] at h
    split at h
    · rename_i hok
      obtain ⟨u, hu, hr⟩ := Option.bind_eq_some_iff.mp h
      exact .head hok hu (ih hr)
    · cases h

theorem exists_of_checkedRun [∀ s i, Decidable (ok s i)] {p : σ → Bool} (h : (checkedRun M ok s is).any p = true) :
    ∃ t, Steps M ok s t ∧ p t = true := by
  obtain ⟨t, ht, hp⟩ := (Option.any_eq_true _ _).mp h
  exact ⟨t, steps_of_checkedRun ht, hp⟩

end Lib
