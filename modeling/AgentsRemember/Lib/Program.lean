/-!
# Programs whose commands may fail

A program runs on a state, issues commands, and returns, raises, or dies with
its process. What befalls a command is its fate: it works, ends in failure with
no effect, raises with no effect, or the process dies before it. Fates depend on
the command and on how many came before it.

`wp m Q s`: however many commands came before, `m` from `s` ends as `Q` says.
-/

namespace Lib

inductive Fate
  | works
  | fails
  | raises
  | dies
  deriving DecidableEq

inductive Ending (ε σ α : Type)
  | done (a : α) (issued : Nat) (s : σ)
  | raised (e : ε) (issued : Nat) (s : σ)
  | died (s : σ)

def Program (ε σ α : Type) := Nat → σ → Ending ε σ α

namespace Program

variable {ε σ α β : Type}

def bind (m : Program ε σ α) (f : α → Program ε σ β) : Program ε σ β := fun n s =>
  match m n s with
  | .done a n s => f a n s
  | .raised e n s => .raised e n s
  | .died s => .died s

instance : Monad (Program ε σ) where
  pure a := fun n s => .done a n s
  bind := bind

def raise (e : ε) : Program ε σ α := fun n s => .raised e n s

/-- What the state says. -/
def read (f : σ → α) : Program ε σ α := fun n s => .done (f s) n s

def change (f : σ → σ) : Program ε σ Unit := fun n s => .done () n (f s)

/-- `except`: the handler runs on an exception, which is then its own affair. -/
def rescue (m : Program ε σ α) (handler : ε → Program ε σ α) : Program ε σ α := fun n s =>
  match m n s with
  | .raised e n s => handler e n s
  | r => r

/-- `finally`: the clean-up runs when the program returned or raised, and an exception of its own takes over. -/
def ensure (m : Program ε σ α) (cleanUp : Program ε σ Unit) : Program ε σ α := fun n s =>
  match m n s with
  | .done a n s =>
    match cleanUp n s with
    | .done _ n s => .done a n s
    | .raised e n s => .raised e n s
    | .died s => .died s
  | .raised e n s =>
    match cleanUp n s with
    | .done _ n s => .raised e n s
    | .raised e n s => .raised e n s
    | .died s => .died s
  | .died s => .died s

/-- A command: its effect when it works, what it returns when it fails, and its exception when it raises. -/
def command (fate : Nat → Fate) (failed : α) (broken : ε) (effect : σ → α × σ) : Program ε σ α := fun n s =>
  match fate n with
  | .works => .done (effect s).1 (n + 1) (effect s).2
  | .fails => .done failed (n + 1) s
  | .raises => .raised broken (n + 1) s
  | .dies => .died s

/-! ## What holds at the end -/

structure Post (ε σ α : Type) where
  done : α → σ → Prop
  raised : ε → σ → Prop
  died : σ → Prop

def Ending.Meets (Q : Post ε σ α) : Ending ε σ α → Prop
  | .done a _ s => Q.done a s
  | .raised e _ s => Q.raised e s
  | .died s => Q.died s

def wp (m : Program ε σ α) (Q : Post ε σ α) (s : σ) : Prop := ∀ n, Ending.Meets Q (m n s)

variable {Q Q' : Post ε σ α} {s : σ}

theorem wp_pure {a : α} (h : Q.done a s) : wp (pure a) Q s := fun _ => h

theorem wp_raise {e : ε} (h : Q.raised e s) : wp (raise e) Q s := fun _ => h

theorem wp_read {f : σ → α} (h : Q.done (f s) s) : wp (read f) Q s := fun _ => h

theorem wp_change {Q : Post ε σ Unit} {f : σ → σ} (h : Q.done () (f s)) : wp (change f) Q s := fun _ => h

theorem wp_bind {m : Program ε σ α} {f : α → Program ε σ β} {Q : Post ε σ β}
    (h : wp m ⟨fun a t => wp (f a) Q t, Q.raised, Q.died⟩ s) : wp (m >>= f) Q s := by
  intro n
  have hm := h n
  show Ending.Meets Q (bind m f n s)
  unfold bind
  cases hr : m n s with
  | done a k t =>
    rw [hr] at hm
    exact hm k
  | raised e k t =>
    rw [hr] at hm
    exact hm
  | died t =>
    rw [hr] at hm
    exact hm

theorem wp_mono {m : Program ε σ α} (h : wp m Q s) (hd : ∀ a t, Q.done a t → Q'.done a t)
    (hr : ∀ e t, Q.raised e t → Q'.raised e t) (hx : ∀ t, Q.died t → Q'.died t) : wp m Q' s := by
  intro n
  have hm := h n
  cases hr' : m n s with
  | done a k t =>
    rw [hr'] at hm
    exact hd a t hm
  | raised e k t =>
    rw [hr'] at hm
    exact hr e t hm
  | died t =>
    rw [hr'] at hm
    exact hx t hm

theorem wp_and {m : Program ε σ α} {P : Post ε σ α} (h : wp m P s) (h' : wp m Q s) :
    wp m ⟨fun a t => P.done a t ∧ Q.done a t, fun e t => P.raised e t ∧ Q.raised e t,
      fun t => P.died t ∧ Q.died t⟩ s := by
  intro n
  have hm := h n
  have hm' := h' n
  cases hr : m n s <;> rw [hr] at hm hm' <;> exact ⟨hm, hm'⟩

theorem wp_seq {m : Program ε σ α} {f : α → Program ε σ β} {P : Post ε σ α} {Q : Post ε σ β} (h : wp m P s)
    (hd : ∀ a t, P.done a t → wp (f a) Q t) (hr : ∀ e t, P.raised e t → Q.raised e t)
    (hx : ∀ t, P.died t → Q.died t) : wp (m >>= f) Q s := wp_bind (wp_mono h hd hr hx)

theorem wp_rescue {m : Program ε σ α} {handler : ε → Program ε σ α}
    (h : wp m ⟨Q.done, fun e t => wp (handler e) Q t, Q.died⟩ s) : wp (rescue m handler) Q s := by
  intro n
  have hm := h n
  unfold rescue
  cases hr : m n s with
  | done a k t =>
    rw [hr] at hm
    exact hm
  | raised e k t =>
    rw [hr] at hm
    exact hm k
  | died t =>
    rw [hr] at hm
    exact hm

theorem wp_ensure {m : Program ε σ α} {cleanUp : Program ε σ Unit}
    (h : wp m ⟨fun a t => wp cleanUp ⟨fun _ u => Q.done a u, Q.raised, Q.died⟩ t,
      fun e t => wp cleanUp ⟨fun _ u => Q.raised e u, Q.raised, Q.died⟩ t, Q.died⟩ s) : wp (ensure m cleanUp) Q s := by
  intro n
  have hm := h n
  unfold ensure
  cases hr : m n s with
  | done a k t =>
    rw [hr] at hm
    have hc := hm k
    simp only
    cases hr' : cleanUp k t <;> rw [hr'] at hc <;> exact hc
  | raised e k t =>
    rw [hr] at hm
    have hc := hm k
    simp only
    cases hr' : cleanUp k t <;> rw [hr'] at hc <;> exact hc
  | died t =>
    rw [hr] at hm
    exact hm

theorem wp_command {fate : Nat → Fate} {failed : α} {broken : ε} {effect : σ → α × σ}
    (hw : Q.done (effect s).1 (effect s).2) (hf : (∃ n, fate n = .fails) → Q.done failed s)
    (hr : (∃ n, fate n = .raises) → Q.raised broken s) (hd : (∃ n, fate n = .dies) → Q.died s) :
    wp (command fate failed broken effect) Q s := by
  intro n
  unfold command
  cases h : fate n with
  | works => exact hw
  | fails => exact hf ⟨n, h⟩
  | raises => exact hr ⟨n, h⟩
  | dies => exact hd ⟨n, h⟩

end Program

end Lib
