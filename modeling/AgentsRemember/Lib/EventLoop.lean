import AgentsRemember.Lib.Scripts
import Mathlib.Order.Basic

/-!
# One event loop and its tasks

Tasks take turns. One runs until it awaits an answer, or a lock that another task
holds, or its end; nothing runs in between. What an await answers is left to a
choice and to the store it finds. A task that ends may go on with a program.
-/

namespace Lib

inductive Ask (σ Q : Type)
  | get
  | put (s : σ)
  -- The one lock of the loop; where it is free, taking it suspends nobody.
  | acquire
  | release
  | await (q : Q)

@[reducible] def Ask.Answer {σ Q : Type} (A : Q → Type) : Ask σ Q → Type
  | .get => σ
  | .put _ => Unit
  | .acquire => Unit
  | .release => Unit
  | .await q => A q

abbrev Coroutine (σ Q : Type) (A : Q → Type) (α : Type) := Script (Ask σ Q) (Ask.Answer A) α

variable {σ Q κ γ ω α β : Type} {A : Q → Type}

namespace Coroutine

def get : Coroutine σ Q A σ := .issue .get .done

def put (s : σ) : Coroutine σ Q A Unit := .issue (.put s) .done

def acquire : Coroutine σ Q A Unit := .issue .acquire .done

def release : Coroutine σ Q A Unit := .issue .release .done

def await (q : Q) : Coroutine σ Q A (A q) := .issue (.await q) .done

def update (f : σ → σ) : Coroutine σ Q A Unit := get.bind fun s => put (f s)

def locked (f : σ → β × σ) : Coroutine σ Q A β :=
  acquire.bind fun _ => get.bind fun s => (put (f s).2).bind fun _ => release.bind fun _ => .done (f s).1

def advance (prog : κ → Coroutine σ Q A (Option κ)) :
    Coroutine σ Q A (Option κ) → Bool → σ → Coroutine σ Q A (Option κ) × Bool × σ
  | .done (some k), held, s => (prog k, held, s)
  | .done none, held, s => (.done none, held, s)
  | .raised, held, s => (.raised, held, s)
  | .issue .get next, held, s => advance prog (next s) held s
  | .issue (.put s) next, held, _ => advance prog (next ()) held s
  | .issue .acquire next, held, s => if held then (.issue .acquire next, held, s) else advance prog (next ()) true s
  | .issue .release next, _, s => advance prog (next ()) false s
  | .issue (.await q) next, held, s => (.issue (.await q) next, held, s)

end Coroutine

structure EventLoop (σ : Type) {Q : Type} (A : Q → Type) (κ : Type) where
  store : σ
  held : Bool
  tasks : List (Coroutine σ Q A (Option κ))

inductive LoopAction (γ ω : Type)
  | call (c : γ)
  | resume (i : Nat) (choice : ω)

namespace EventLoop

variable (deliver : ω → σ → (q : Q) → Option (A q × σ)) (prog : κ → Coroutine σ Q A (Option κ))
  (entry : γ → Coroutine σ Q A (Option κ))

def turn (l : EventLoop σ A κ) (i : Nat) (t : Coroutine σ Q A (Option κ)) (s : σ) : EventLoop σ A κ :=
  let now := Coroutine.advance prog t l.held s
  ⟨now.2.2, now.2.1, l.tasks.set i now.1⟩

def step (l : EventLoop σ A κ) : LoopAction γ ω → Option (EventLoop σ A κ)
  | .call c => some { l with tasks := l.tasks ++ [entry c] }
  | .resume i choice =>
    match l.tasks[i]? with
    | some (.issue (.await q) next) => (deliver choice l.store q).map fun a => l.turn prog i (next a.1) a.2
    | some (.done none) => none
    | some .raised => none
    | some t => some (l.turn prog i t l.store)
    | none => none

def system (s : σ) (ks : List κ) : System (EventLoop σ A κ) (LoopAction γ ω) :=
  ⟨⟨s, false, ks.map prog⟩, step deliver prog entry⟩

end EventLoop

/-! ## A lock that nobody waits for -/

namespace Coroutine

def Guarded : Bool → Coroutine σ Q A α → Prop
  | held, .done _ => held = false
  | held, .raised => held = false
  | held, .issue .get next => ∀ s, Guarded held (next s)
  | held, .issue (.put _) next => Guarded held (next ())
  | held, .issue .acquire next => held = false ∧ Guarded true (next ())
  | held, .issue .release next => held = true ∧ Guarded false (next ())
  | held, .issue (.await _) next => held = false ∧ ∀ a, Guarded false (next a)

theorem Guarded.bind {f : α → Coroutine σ Q A β} (hf : ∀ a, Guarded false (f a)) {t : Coroutine σ Q A α} :
    ∀ {held : Bool}, Guarded held t → Guarded held (Script.bind t f) := by
  induction t with
  | done a =>
    intro held h
    cases show held = false from h
    exact hf a
  | raised => exact fun h => h
  | issue c next ih =>
    intro held h
    cases c with
    | get => exact fun s => ih s (h s)
    | put s => exact ih () h
    | acquire => exact ⟨h.1, ih () h.2⟩
    | release => exact ⟨h.1, ih () h.2⟩
    | await q => exact ⟨h.1, fun a => ih a (h.2 a)⟩

theorem guarded_get {f : σ → Coroutine σ Q A α} (h : ∀ s, Guarded false (f s)) :
    Guarded false (Script.bind get f) := h

variable {f : Unit → Coroutine σ Q A α}

theorem guarded_put {s : σ} (h : Guarded false (f ())) : Guarded false (Script.bind (put s) f) := h

theorem guarded_update {g : σ → σ} (h : Guarded false (f ())) : Guarded false (Script.bind (update g) f) := fun _ => h

theorem guarded_locked {g : σ → β × σ} {f : β → Coroutine σ Q A α} (h : ∀ b, Guarded false (f b)) :
    Guarded false (Script.bind (locked g) f) := ⟨rfl, fun s => ⟨rfl, h (g s).1⟩⟩

theorem guarded_await {q : Q} {f : A q → Coroutine σ Q A α} (h : ∀ a, Guarded false (f a)) :
    Guarded false (Script.bind (await q) f) := ⟨rfl, h⟩

theorem advance_guarded {prog : κ → Coroutine σ Q A (Option κ)} (hprog : ∀ k, Guarded false (prog k))
    (t : Coroutine σ Q A (Option κ)) : ∀ {held : Bool} {s : σ}, Guarded held t →
      (advance prog t held s).2.1 = false ∧ Guarded false (advance prog t held s).1 := by
  induction t with
  | done a =>
    intro held s h
    cases show held = false from h
    cases a with
    | none => exact ⟨rfl, rfl⟩
    | some k => exact ⟨rfl, hprog k⟩
  | raised => exact fun h => ⟨h, rfl⟩
  | issue c next ih =>
    intro held s h
    cases c with
    | get => exact ih s (h s)
    | put s => exact ih () h
    | acquire =>
      cases h.1
      exact ih () h.2
    | release => exact ih () h.2
    | await q =>
      cases h.1
      exact ⟨rfl, h⟩

end Coroutine

/-! ## What holds whenever a task is suspended -/

variable {P : Type} [Preorder P] (deliver : ω → σ → (q : Q) → Option (A q × σ)) (I : σ → Prop) (grown : σ → P)

namespace Coroutine

/-- At `s`, having gone on from `s₀`: the task has `I` wherever it awaits, if it finds it there again, has lost
nothing of `grown` since it went on, and ends as `E` says. -/
def Runs (E : Option α → σ → σ → Prop) : Coroutine σ Q A α → σ → σ → Prop
  | .done a, s₀, s => E (some a) s₀ s
  | .raised, s₀, s => E none s₀ s
  | .issue .get next, s₀, s => Runs E (next s) s₀ s
  | .issue (.put s) next, s₀, _ => Runs E (next ()) s₀ s
  | .issue .acquire next, s₀, s => Runs E (next ()) s₀ s
  | .issue .release next, s₀, s => Runs E (next ()) s₀ s
  | .issue (.await q) next, s₀, s => (I s ∧ grown s₀ ≤ grown s) ∧
      ∀ w s' a, I s' → grown s ≤ grown s' → deliver w s' q = some a → Runs E (next a.1) s' a.2

def Kept (_ : Option α) (s₀ s : σ) : Prop := I s ∧ grown s₀ ≤ grown s

def Keeps (t : Coroutine σ Q A (Option κ)) (s : σ) : Prop :=
  ∀ s', I s' → grown s ≤ grown s' → Runs deliver I grown (Kept I grown) t s' s'

variable {deliver I grown}

theorem Runs.bind {E : Option β → σ → σ → Prop} {f : α → Coroutine σ Q A β} (t : Coroutine σ Q A α) :
    ∀ {s₀ s : σ}, Runs deliver I grown (fun r s₀ s => r.elim (E none s₀ s) fun a => Runs deliver I grown E (f a) s₀ s)
      t s₀ s → Runs deliver I grown E (Script.bind t f) s₀ s := by
  induction t with
  | done a => exact fun h => h
  | raised => exact fun h => h
  | issue c next ih =>
    intro s₀ s h
    cases c with
    | get => exact ih s h
    | put s => exact ih () h
    | acquire => exact ih () h
    | release => exact ih () h
    | await q => exact ⟨h.1, fun w s' a hs' hle ha => ih a.1 (h.2 w s' a hs' hle ha)⟩

variable {s' : σ} {f : Unit → Coroutine σ Q A α}

theorem Keeps.later {t : Coroutine σ Q A (Option κ)} {s : σ} (h : Keeps deliver I grown t s) (hle : grown s ≤ grown s')
    : Keeps deliver I grown t s' := fun u hu hle' => h u hu (hle.trans hle')

theorem advance_keeps {prog : κ → Coroutine σ Q A (Option κ)} (hprog : ∀ k s, Keeps deliver I grown (prog k) s)
    (t : Coroutine σ Q A (Option κ)) : ∀ {held : Bool} {s₀ s : σ}, Guarded held t →
      Runs deliver I grown (Kept I grown) t s₀ s →
      Kept I grown (some ()) s₀ (advance prog t held s).2.2 ∧
        Keeps deliver I grown (advance prog t held s).1 (advance prog t held s).2.2 := by
  induction t with
  | done a =>
    intro held s₀ s _ h
    cases a with
    | none => exact ⟨h, fun _ hs _ => ⟨hs, le_rfl⟩⟩
    | some k => exact ⟨h, hprog k _⟩
  | raised => exact fun _ h => ⟨h, fun _ hs _ => ⟨hs, le_rfl⟩⟩
  | issue c next ih =>
    intro held s₀ s hg h
    cases c with
    | get => exact ih s (hg s) h
    | put s => exact ih () hg h
    | acquire =>
      cases hg.1
      exact ih () hg.2 h
    | release => exact ih () hg.2 h
    | await q => exact ⟨h.1, fun s' hs' hle => ⟨⟨hs', le_rfl⟩, fun w u a hu hle' => h.2 w u a hu (hle.trans hle')⟩⟩

/-! ### The commands -/

variable {E : Option α → σ → σ → Prop} {s₀ s : σ}

theorem runs_get {f : σ → Coroutine σ Q A α} (h : Runs deliver I grown E (f s) s₀ s) :
    Runs deliver I grown E (Script.bind get f) s₀ s := h

theorem runs_put (h : Runs deliver I grown E (f ()) s₀ s') : Runs deliver I grown E (Script.bind (put s') f) s₀ s := h

theorem runs_update {g : σ → σ} (h : Runs deliver I grown E (f ()) s₀ (g s)) :
    Runs deliver I grown E (Script.bind (update g) f) s₀ s := h

theorem runs_locked {g : σ → β × σ} {f : β → Coroutine σ Q A α} (h : Runs deliver I grown E (f (g s).1) s₀ (g s).2) :
    Runs deliver I grown E (Script.bind (locked g) f) s₀ s := h

theorem runs_await {q : Q} {f : A q → Coroutine σ Q A α} (hs : I s) (hle : grown s₀ ≤ grown s)
    (h : ∀ w s' a, I s' → grown s ≤ grown s' → deliver w s' q = some a → Runs deliver I grown E (f a.1) s' a.2) :
    Runs deliver I grown E (Script.bind (await q) f) s₀ s := ⟨⟨hs, hle⟩, h⟩

end Coroutine

namespace EventLoop
open Coroutine

/-- The lock is free, and every task keeps `I` from where it is suspended. -/
structure Sound (l : EventLoop σ A κ) : Prop where
  store : I l.store
  free : l.held = false
  guarded : ∀ t ∈ l.tasks, Guarded false t
  keeps : ∀ t ∈ l.tasks, Keeps deliver I grown t l.store

variable {deliver I grown} {prog : κ → Coroutine σ Q A (Option κ)} {entry : γ → Coroutine σ Q A (Option κ)}

variable {l : EventLoop σ A κ} {s : σ}

theorem Sound.turn (hg : ∀ k, Guarded false (prog k)) (hk : ∀ k s, Keeps deliver I grown (prog k) s)
    (hl : l.Sound deliver I grown) {i : Nat} {t : Coroutine σ Q A (Option κ)} (ht : Guarded false t)
    (h : Runs deliver I grown (Kept I grown) t l.store s) : (l.turn prog i t s).Sound deliver I grown := by
  have hfree : (advance prog t l.held s).2.1 = false ∧ Guarded false (advance prog t l.held s).1 := by
    rw [hl.free]
    exact advance_guarded hg t ht
  have hkeeps : Kept I grown (some ()) l.store (advance prog t l.held s).2.2 ∧
      Keeps deliver I grown (advance prog t l.held s).1 (advance prog t l.held s).2.2 := by
    rw [hl.free]
    exact advance_keeps hk t ht h
  refine ⟨hkeeps.1.1, hfree.1, fun u hu => ?_, fun u hu => ?_⟩
  · rcases List.mem_or_eq_of_mem_set hu with hu | rfl
    · exact hl.guarded u hu
    · exact hfree.2
  rcases List.mem_or_eq_of_mem_set hu with hu | rfl
  · exact (hl.keeps u hu).later hkeeps.1.2
  · exact hkeeps.2

theorem Sound.step (hg : ∀ k, Guarded false (prog k)) (hk : ∀ k s, Keeps deliver I grown (prog k) s)
    (hge : ∀ c, Guarded false (entry c)) (hke : ∀ c s, Keeps deliver I grown (entry c) s) {l' : EventLoop σ A κ}
    {a : LoopAction γ ω} (hl : l.Sound deliver I grown) (h : step deliver prog entry l a = some l') :
    l'.Sound deliver I grown := by
  cases a with
  | call c =>
    cases h
    refine ⟨hl.store, hl.free, fun t ht => ?_, fun t ht => ?_⟩
    all_goals rcases List.mem_append.mp ht with ht | ht
    · exact hl.guarded t ht
    · cases List.mem_singleton.mp ht
      exact hge c
    · exact hl.keeps t ht
    · cases List.mem_singleton.mp ht
      exact hke c _
  | resume i choice =>
    simp only [EventLoop.step] at h
    split at h
    · rename_i q next hi
      obtain ⟨a, ha, rfl⟩ := Option.map_eq_some_iff.mp h
      have hmem := List.mem_of_getElem? hi
      have hruns := (hl.keeps _ hmem _ hl.store le_rfl).2 choice _ a hl.store le_rfl ha
      exact hl.turn hg hk ((hl.guarded _ hmem).2 a.1) hruns
    · cases h
    · cases h
    · rename_i t hi
      cases h
      have hmem := List.mem_of_getElem? hi
      exact hl.turn hg hk (hl.guarded _ hmem) (hl.keeps _ hmem _ hl.store le_rfl)
    · cases h

/-- **Loop rule.** Where every program keeps `I` between its awaits and awaits nothing under the lock, every
reachable loop has `I` and a free lock. -/
theorem sound_of_reachable (hg : ∀ k, Guarded false (prog k)) (hk : ∀ k s, Keeps deliver I grown (prog k) s)
    (hge : ∀ c, Guarded false (entry c)) (hke : ∀ c s, Keeps deliver I grown (entry c) s) {ks : List κ} (hs : I s)
    (h : Reachable (system deliver prog entry s ks) always l) : l.Sound deliver I grown := by
  refine h.invariant ?_ fun _ _ _ hl _ hstep => hl.step hg hk hge hke hstep
  refine ⟨hs, rfl, fun t ht => ?_, fun t ht => ?_⟩
  all_goals obtain ⟨k, -, rfl⟩ := List.mem_map.mp ht
  · exact hg k
  · exact hk k _

end EventLoop

end Lib
