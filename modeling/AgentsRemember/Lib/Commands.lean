import AgentsRemember.Lib.System
import Mathlib.Data.List.Nodup

/-!
# Commands to a target that moves

A command finds a target active, and may name the one it means. It is checked
when it is called, written when the wire is its own, and its acknowledgement is
kept: a repeat is answered from it. What a write hits is the target that is
active by then.
-/

namespace Lib

structure Command (τ : Type) where
  expected : Option τ
  target : τ
  /-- Checked, and not yet at the wire. -/
  waiting : Bool

structure CommandWrite (τ : Type) where
  expected : Option τ
  target : τ
  /-- The target that was active as the bytes went out. -/
  active : Option τ

structure Commands (τ : Type) where
  calls : List (Command τ)
  writes : List (CommandWrite τ)
  /-- The named and the found target of the last acknowledgement. -/
  last : Option (τ × τ)

namespace Commands

variable {τ : Type}

def pass (k : Command τ) : Command τ := { k with waiting := false }

inductive Move (active : Option τ) (v : Commands τ) : Commands τ → Prop
  | keep : Move active v v
  | enter (k : Command τ) : active = some k.target → k.expected = none ∨ k.expected = some k.target →
      v.last ≠ some (k.target, k.target) → Move active v { v with calls := v.calls ++ [k] }
  | enterWrite (k : Command τ) : active = some k.target → k.expected = none ∨ k.expected = some k.target →
      v.last ≠ some (k.target, k.target) → Move active v
        { v with
          calls := v.calls ++ [pass k]
          writes := v.writes ++ [⟨k.expected, k.target, active⟩] }
  | write (i : Nat) (k : Command τ) : v.calls[i]? = some k → k.waiting = true → Move active v
        { v with
          calls := v.calls.modify i pass
          writes := v.writes ++ [⟨k.expected, k.target, active⟩] }
  | pass (i : Nat) : Move active v { v with calls := v.calls.modify i pass }
  | settle (k : Command τ) (i : Nat) : k ∈ v.calls → Move active v
        { v with
          calls := v.calls.modify i Commands.pass
          last := some (k.target, k.target) }

/-- No write of a command that names its target hits another. -/
def Aimed (v : Commands τ) : Prop := ∀ w ∈ v.writes, ∀ t, w.expected = some t → w.active = some t

/-- No target is written to twice. -/
def Once (v : Commands τ) : Prop := (v.writes.map CommandWrite.target).Nodup

/-! ## Any run -/

structure Sane (v : Commands τ) : Prop where
  named : ∀ k ∈ v.calls, k.expected = none ∨ k.expected = some k.target
  last : ∀ p, v.last = some p → p.1 = p.2

variable {active active' : Option τ} {v w : Commands τ}

variable {i : Nat} {k k₀ : Command τ} {w₀ : CommandWrite τ} {t : τ}

theorem mem_modify_pass (h : k ∈ v.calls.modify i pass) : k ∈ v.calls ∨ ∃ k' ∈ v.calls, k = pass k' := by
  obtain ⟨j, hj⟩ := List.mem_iff_getElem?.mp h
  rw [List.getElem?_modify] at hj
  obtain ⟨k', hk', hif⟩ := Option.map_eq_some_iff.mp hj
  have hmem := List.mem_of_getElem? hk'
  split at hif
  · exact .inr ⟨k', hmem, hif.symm⟩
  · exact .inl (hif ▸ hmem)

theorem Sane.named_modify (h : Sane v) (hk : k ∈ v.calls.modify i pass) :
    k.expected = none ∨ k.expected = some k.target := by
  rcases mem_modify_pass hk with hk | ⟨k', hk', rfl⟩
  · exact h.named k hk
  · exact h.named k' hk'

theorem Sane.named_append (h : Sane v) (h₀ : k₀.expected = none ∨ k₀.expected = some k₀.target)
    (hk : k ∈ v.calls ++ [k₀]) : k.expected = none ∨ k.expected = some k.target := by
  rcases List.mem_append.mp hk with hk | hk
  · exact h.named k hk
  · rw [List.mem_singleton.mp hk]
    exact h₀

theorem Sane.move (h : Sane v) (hm : Move active v w) : Sane w := by
  cases hm with
  | keep => exact h
  | enter k _ hnamed _ => exact ⟨fun _ hk => h.named_append hnamed hk, h.last⟩
  | enterWrite k _ hnamed _ =>
    have hpassed : (Commands.pass k).expected = none ∨ (Commands.pass k).expected = some (Commands.pass k).target := hnamed
    exact ⟨fun _ hk => h.named_append hpassed hk, h.last⟩
  | write i k _ _ => exact ⟨fun _ hk => h.named_modify hk, h.last⟩
  | pass i => exact ⟨fun _ hk => h.named_modify hk, h.last⟩
  | settle k i _ => exact ⟨fun _ hk => h.named_modify hk, fun _ hp => by cases hp; rfl⟩

/-! ## Runs in which no target moves under a command that names it -/

structure Ready (active : Option τ) (v : Commands τ) : Prop extends Sane v where
  waiting : ∀ k ∈ v.calls, k.waiting = true → k.expected.isSome = true → active = some k.target
  aimed : Aimed v

/-- The target moves only where no command that names it waits. -/
def undisturbed [DecidableEq τ] (v : Commands τ) (active active' : Option τ) : Bool :=
  v.calls.all fun k => !(k.waiting && k.expected.isSome) || active' = active

theorem aimed_append (h : Aimed v) (h₀ : ∀ t, w₀.expected = some t → w₀.active = some t) :
    Aimed { v with writes := v.writes ++ [w₀] } := by
  intro w hw
  rcases List.mem_append.mp hw with hw | hw
  · exact h w hw
  · rw [List.mem_singleton.mp hw]
    exact h₀

theorem Ready.waiting_modify (h : Ready active v) (hk : k ∈ v.calls.modify i pass) (hw : k.waiting = true)
    (he : k.expected.isSome = true) : active = some k.target := by
  rcases mem_modify_pass hk with hk | ⟨k', -, rfl⟩
  · exact h.waiting k hk hw he
  · cases hw

theorem named_target (hnamed : k.expected = none ∨ k.expected = some k.target) (ht : k.expected = some t) :
    t = k.target := by
  rcases hnamed with hn | hn
  · exact nomatch hn.symm.trans ht
  · exact (Option.some.inj (hn.symm.trans ht)).symm

theorem Ready.move (h : Ready active v) (hm : Move active v w) : Ready active w := by
  have hsane := h.toSane.move hm
  cases hm with
  | keep => exact h
  | enter k hactive hnamed _ =>
    refine ⟨hsane, fun k' hk' => ?_, h.aimed⟩
    rcases List.mem_append.mp hk' with hk' | hk'
    · exact h.waiting k' hk'
    · rw [List.mem_singleton.mp hk']
      exact fun _ _ => hactive
  | enterWrite k hactive hnamed _ =>
    refine ⟨hsane, fun k' hk' => ?_, aimed_append h.aimed fun t ht => ?_⟩
    · rcases List.mem_append.mp hk' with hk' | hk'
      · exact h.waiting k' hk'
      · rw [List.mem_singleton.mp hk']
        exact fun _ _ => hactive
    · rw [named_target hnamed ht]
      exact hactive
  | write i k hk hw =>
    refine ⟨hsane, fun k' hk' => h.waiting_modify hk', aimed_append h.aimed fun t ht => ?_⟩
    have hmem := List.mem_of_getElem? hk
    rw [named_target (h.named k hmem) ht]
    exact h.waiting k hmem hw (Option.isSome_iff_exists.mpr ⟨t, ht⟩)
  | pass i => exact ⟨hsane, fun k' hk' => h.waiting_modify hk', h.aimed⟩
  | settle k i _ => exact ⟨hsane, fun k' hk' => h.waiting_modify hk', h.aimed⟩

theorem Ready.moved [DecidableEq τ] (h : Ready active v) (hm : Move active v w)
    (hu : undisturbed w active active' = true) : Ready active' w := by
  have hready := h.move hm
  refine ⟨hready.toSane, fun k hk hw he => ?_, hready.aimed⟩
  have heq : active' = active := by
    have hk' := List.all_eq_true.mp hu k hk
    simpa [hw, he] using hk'
  rw [heq]
  exact hready.waiting k hk hw he

/-! ## Runs in which a repeat finds the acknowledgement -/

def engaged [DecidableEq τ] (v : Commands τ) (t : τ) : Bool :=
  (v.calls.any fun k => k.waiting && k.target = t) || v.writes.any fun w => w.target = t

def settled [DecidableEq τ] (v : Commands τ) (active : Option τ) : Bool :=
  active.all fun t => !v.engaged t || v.last = some (t, t)

/-- No two commands are engaged at one target. -/
structure Apart (v : Commands τ) : Prop where
  once : Once v
  apart : ∀ k ∈ v.calls, k.waiting = true → ∀ w ∈ v.writes, w.target ≠ k.target
  distinct : ∀ (i j : Nat) (k k' : Command τ), v.calls[i]? = some k → v.calls[j]? = some k' → k.waiting = true →
    k'.waiting = true → k.target = k'.target → i = j

theorem modify_pass_waiting {j : Nat} (h : (v.calls.modify i pass)[j]? = some k) (hw : k.waiting = true) :
    j ≠ i ∧ v.calls[j]? = some k := by
  rw [List.getElem?_modify] at h
  obtain ⟨k', hk', hif⟩ := Option.map_eq_some_iff.mp h
  split at hif
  · subst hif
    cases hw
  rename_i hne
  subst hif
  exact ⟨Ne.symm hne, hk'⟩

theorem Apart.pass (h : Apart v) (i : Nat) (last : Option (τ × τ)) :
    Apart { v with
      calls := v.calls.modify i pass
      last := last } := by
  refine ⟨h.once, fun k hk hw => ?_, fun j j' k k' hk hk' hw hw' => ?_⟩
  · obtain ⟨j, hj⟩ := List.mem_iff_getElem?.mp hk
    exact h.apart k (List.mem_of_getElem? (modify_pass_waiting hj hw).2) hw
  · exact h.distinct j j' k k' (modify_pass_waiting hk hw).2 (modify_pass_waiting hk' hw').2 hw hw'

theorem append_cases (h : (v.calls ++ [k₀])[i]? = some k) : v.calls[i]? = some k ∨ (i = v.calls.length ∧ k = k₀) := by
  simp only [List.getElem?_append] at h
  split at h
  · exact .inl h
  obtain ⟨hi, rfl⟩ := List.getElem?_eq_some_iff.mp h
  simp only [List.length_singleton] at hi
  exact .inr ⟨by omega, by simp⟩

theorem not_engaged [DecidableEq τ] (hs : settled v (some t) = true) (hlast : v.last ≠ some (t, t)) :
    (∀ k ∈ v.calls, k.waiting = true → k.target ≠ t) ∧ ∀ w ∈ v.writes, w.target ≠ t := by
  have he : v.engaged t = false := by simpa [settled, hlast] using hs
  simp only [engaged, Bool.or_eq_false_iff, List.any_eq_false, Bool.and_eq_true, decide_eq_true_eq, not_and] at he
  exact ⟨he.1, he.2⟩

theorem once_append (h : Once v) (h₀ : ∀ w ∈ v.writes, w.target ≠ w₀.target) :
    Once { v with writes := v.writes ++ [w₀] } := by
  simp only [Once, List.map_append, List.map_singleton]
  refine List.nodup_append.mpr ⟨h, List.nodup_singleton _, fun a ha b hb heq => ?_⟩
  obtain ⟨w, hw, rfl⟩ := List.mem_map.mp ha
  exact h₀ w hw (heq.trans (List.mem_singleton.mp hb))

theorem Apart.move [DecidableEq τ] (h : Apart v) (hm : Move active v w)
    (hs : v.calls.length < w.calls.length → settled v active = true) : Apart w := by
  cases hm with
  | keep => exact h
  | enter k hactive hnamed hlast =>
    have hfree := not_engaged (hactive ▸ hs (by simp)) hlast
    refine ⟨h.once, fun k' hk' hw' => ?_, fun i j k₁ k₂ hi hj hw₁ hw₂ heq => ?_⟩
    · rcases List.mem_append.mp hk' with hk' | hk'
      · exact h.apart k' hk' hw'
      · rw [List.mem_singleton.mp hk']
        exact hfree.2
    rcases append_cases hi with hi' | ⟨hi', rfl⟩ <;> rcases append_cases hj with hj' | ⟨hj', rfl⟩
    · exact h.distinct i j k₁ k₂ hi' hj' hw₁ hw₂ heq
    · exact absurd heq (hfree.1 k₁ (List.mem_of_getElem? hi') hw₁)
    · exact absurd heq.symm (hfree.1 k₂ (List.mem_of_getElem? hj') hw₂)
    · exact hi'.trans hj'.symm
  | enterWrite k hactive hnamed hlast =>
    have hfree := not_engaged (hactive ▸ hs (by simp)) hlast
    refine ⟨once_append h.once hfree.2, fun k' hk' hw' w hw => ?_, fun i j k₁ k₂ hi hj hw₁ hw₂ heq => ?_⟩
    · rcases List.mem_append.mp hk' with hk' | hk'
      · rcases List.mem_append.mp hw with hw | hw
        · exact h.apart k' hk' hw' w hw
        · rw [List.mem_singleton.mp hw]
          exact (hfree.1 k' hk' hw').symm
      · rw [List.mem_singleton.mp hk'] at hw'
        cases hw'
    rcases append_cases hi with hi | ⟨-, rfl⟩
    · rcases append_cases hj with hj | ⟨-, rfl⟩
      · exact h.distinct i j k₁ k₂ hi hj hw₁ hw₂ heq
      · cases hw₂
    · cases hw₁
  | write i k hk hw =>
    have hpassed := h.pass i v.last
    refine ⟨once_append h.once (h.apart k (List.mem_of_getElem? hk) hw), fun k' hk' hw' w hw'' => ?_, hpassed.distinct⟩
    obtain ⟨j, hj⟩ := List.mem_iff_getElem?.mp hk'
    obtain ⟨hne, hj'⟩ := modify_pass_waiting hj hw'
    rcases List.mem_append.mp hw'' with hw'' | hw''
    · exact h.apart k' (List.mem_of_getElem? hj') hw' w hw''
    · rw [List.mem_singleton.mp hw'']
      exact fun heq => hne (h.distinct j i k' k hj' hk hw' hw heq.symm)
  | pass i => exact h.pass i v.last
  | settle k i _ => exact h.pass i _

end Commands

/-! ## Systems that send commands -/

structure Commander {σ ι : Type} (τ : Type) (M : System σ ι) where
  view : σ → Commands τ
  active : σ → Option τ
  move : ∀ s i t, (view s).Sane → M.step s i = some t → (view s).Move (active s) (view t)

namespace Commander

variable {σ ι τ : Type} [DecidableEq τ] {M : System σ ι} (C : Commander τ M)

/-- The step moves no target under a waiting command that names it. -/
def undisturbed (s : σ) (i : ι) : Bool := (M.step s i).all fun t => (C.view t).undisturbed (C.active s) (C.active t)

/-- The step enters no command at an engaged target that is not settled. -/
def unrepeated (s : σ) (i : ι) : Bool :=
  (C.view s).settled (C.active s) || (M.step s i).all fun t => (C.view t).calls.length ≤ (C.view s).calls.length

variable {s t : σ}

theorem aimed_of_undisturbed (h0 : (C.view s).calls = [] ∧ (C.view s).writes = [] ∧ (C.view s).last = none)
    (h : Steps M (fun u i => C.undisturbed u i = true) s t) : (C.view t).Aimed := by
  have hready : (C.view t).Ready (C.active t) := by
    induction h with
    | refl =>
      refine ⟨⟨?_, ?_⟩, ?_, ?_⟩
      · simp [h0.1]
      · simp [h0.2.2]
      · simp [h0.1]
      · simp [Commands.Aimed, h0.2.1]
    | tail _ hok hst ih =>
      refine ih.moved (C.move _ _ _ ih.toSane hst) ?_
      simpa [undisturbed, hst] using hok
  exact hready.aimed

theorem once_of_unrepeated (h0 : (C.view s).calls = [] ∧ (C.view s).writes = [] ∧ (C.view s).last = none)
    (h : Steps M (fun u i => C.unrepeated u i = true) s t) : (C.view t).Once := by
  have hboth : (C.view t).Sane ∧ (C.view t).Apart := by
    induction h with
    | refl =>
      refine ⟨⟨?_, ?_⟩, ?_, ?_, ?_⟩
      · simp [h0.1]
      · simp [h0.2.2]
      · simp [Commands.Once, h0.2.1]
      · simp [h0.1]
      · simp [h0.1]
    | tail _ hok hst ih =>
      have hm := C.move _ _ _ ih.1 hst
      refine ⟨ih.1.move hm, ih.2.move hm fun hlt => ?_⟩
      simp only [unrepeated, hst, Option.all_some, Bool.or_eq_true, decide_eq_true_eq] at hok
      exact hok.resolve_right (Nat.not_le.mpr hlt)
  exact hboth.2.once

end Commander

end Lib
