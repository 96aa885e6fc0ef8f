import AgentsRemember.Lib.System

/-!
# Scripts over a shared store

A script issues commands, each one atomic on a store that other scripts use too, and
goes on with the answers. What the code does not decide is left to a choice. A
job of the pool runs command by command among the others; it may end in a body
that runs as one step, as under a lock, and leaves further jobs.
-/

namespace Lib

inductive Script (C : Type) (A : C → Type) (α : Type)
  | done (a : α)
  | raised
  | issue (c : C) (next : A c → Script C A α)

namespace Script

section
variable {C : Type} {A : C → Type} {α β : Type}

def bind (m : Script C A α) (f : α → Script C A β) : Script C A β :=
  match m with
  | .done a => f a
  | .raised => .raised
  | .issue c next => .issue c fun a => (next a).bind f

instance : Monad (Script C A) where
  pure := .done
  bind := bind

def command (c : C) : Script C A (A c) := .issue c .done

variable {σ ω : Type} (exec : ω → σ → (c : C) → A c × σ) (ok : σ → C → Prop)

/-- Nothing in between; the nth choice settles the nth command. -/
def run (choose : Nat → ω) : Script C A α → Nat → σ → Option α × σ
  | .done a, _, s => (some a, s)
  | .raised, _, s => (none, s)
  | .issue c next, n, s => (next (exec (choose n) s c).1).run choose (n + 1) (exec (choose n) s c).2

def Issues (choose : Nat → ω) : Script C A α → Nat → σ → Prop
  | .done _, _, _ => True
  | .raised, _, _ => True
  | .issue c next, n, s => ok s c ∧ (next (exec (choose n) s c).1).Issues choose (n + 1) (exec (choose n) s c).2

variable {exec ok}

variable {choose : Nat → ω} {Q : Option α → σ → Prop}

theorem run_keeps {P : σ → Prop} (hP : ∀ w s c, P s → ok s c → P (exec w s c).2) (t : Script C A α) :
    ∀ {n : Nat} {s : σ}, P s → t.Issues exec ok choose n s → P (t.run exec choose n s).2 := by
  induction t with
  | done a => exact fun hs _ => hs
  | raised => exact fun hs _ => hs
  | issue c next ih => exact fun hs h => ih _ (hP _ _ _ hs h.1) h.2

theorem issues_of_forall (hok : ∀ s c, ok s c) (t : Script C A α) :
    ∀ {n : Nat} {s : σ}, t.Issues exec ok choose n s := by
  induction t with
  | done a => exact trivial
  | raised => exact trivial
  | issue c next ih => exact ⟨hok _ c, ih _⟩

variable (exec ok) in
instance decidableIssues [∀ s c, Decidable (ok s c)] (choose : Nat → ω) : (t : Script C A α) → (n : Nat) → (s : σ) →
    Decidable (t.Issues exec ok choose n s)
  | .done _, _, _ => .isTrue trivial
  | .raised, _, _ => .isTrue trivial
  | .issue c next, n, s =>
    have := decidableIssues choose (next (exec (choose n) s c).1) (n + 1) (exec (choose n) s c).2
    inferInstanceAs (Decidable (_ ∧ _))

variable (exec ok)

/-- From `s` the script ends as `Q` says, whatever is chosen, where its commands meet the condition. -/
def Ends (Q : Option α → σ → Prop) : Script C A α → σ → Prop
  | .done a, s => Q (some a) s
  | .raised, s => Q none s
  | .issue c next, s => ok s c → ∀ w, (next (exec w s c).1).Ends Q (exec w s c).2

variable {exec ok}

theorem Ends.mono {Q' : Option α → σ → Prop} (hQ : ∀ r s, Q r s → Q' r s) (t : Script C A α) :
    ∀ {s : σ}, t.Ends exec ok Q s → t.Ends exec ok Q' s := by
  induction t with
  | done a => exact hQ _ _
  | raised => exact hQ _ _
  | issue c next ih => exact fun h hok w => ih _ (h hok w)

theorem Ends.bind {Q : Option β → σ → Prop} {f : α → Script C A β} (t : Script C A α) :
    ∀ {s : σ}, t.Ends exec ok (fun r s => r.elim (Q none s) fun a => (f a).Ends exec ok Q s) s →
      (t.bind f).Ends exec ok Q s := by
  induction t with
  | done a => exact fun h => h
  | raised => exact fun h => h
  | issue c next ih => exact fun h hok w => ih _ (h hok w)

theorem Ends.run (t : Script C A α) :
    ∀ {n : Nat} {s : σ}, t.Ends exec ok Q s → t.Issues exec ok choose n s →
      Q (t.run exec choose n s).1 (t.run exec choose n s).2 := by
  induction t with
  | done a => exact fun h _ => h
  | raised => exact fun h _ => h
  | issue c next ih => exact fun h hok => ih _ (h hok.1 _) hok.2

end

end Script

section
variable (C : Type) (A : C → Type)

abbrev Body := Script C A (List (Script C A Unit))

abbrev Job := Script C A (Option (Body C A))

variable {C A}

def Job.plain (t : Script C A Unit) : Job C A := t.bind fun _ => .done none

def Job.whole (j : Job C A) : Script C A Unit :=
  j.bind fun
    | none => .done ()
    | some body => body.bind fun left => left.forM id

def Script.embed {C' : Type} {A' : C' → Type} (f : C → C') (back : (c : C) → A' (f c) → A c) {α : Type} :
    Script C A α → Script C' A' α
  | .done a => .done a
  | .raised => .raised
  | .issue c next => .issue (f c) fun a => (next (back c a)).embed f back

def Job.embed {C' : Type} {A' : C' → Type} (f : C → C') (back : (c : C) → A' (f c) → A c) (j : Job C A) : Job C' A' :=
  (Script.embed f back j).bind fun body => .done (body.map fun b =>
    (Script.embed f back b).bind fun left => .done (left.map (Script.embed f back)))

structure Pool (C : Type) (A : C → Type) (σ : Type) where
  store : σ
  jobs : List (Job C A)

inductive PoolAction (κ ω : Type)
  | start (call : κ)
  -- The job's next command, or its body.
  | move (i : Nat) (choose : Nat → ω)

namespace Pool

variable {σ ω κ : Type} (exec : ω → σ → (c : C) → A c × σ) (job : κ → Job C A)

def step (w : Pool C A σ) : PoolAction κ ω → Option (Pool C A σ)
  | .start call => some { w with jobs := w.jobs ++ [job call] }
  | .move i choose =>
    match w.jobs[i]? with
    | some (.issue c next) =>
      let (answer, store) := exec (choose 0) w.store c
      some ⟨store, w.jobs.set i (next answer)⟩
    | some (.done (some body)) =>
      let (left, store) := body.run exec choose 0 w.store
      some ⟨store, w.jobs.set i (.done none) ++ (left.getD []).map Job.plain⟩
    | _ => none

def system (s : σ) : System (Pool C A σ) (PoolAction κ ω) := ⟨⟨s, []⟩, step exec job⟩

def Issues (ok : σ → C → Prop) (w : Pool C A σ) : PoolAction κ ω → Prop
  | .start _ => True
  | .move i choose =>
    match w.jobs[i]? with
    | some (.issue c _) => ok w.store c
    | some (.done (some body)) => body.Issues exec ok choose 0 w.store
    | _ => True

instance decidableIssues (ok : σ → C → Prop) [∀ s c, Decidable (ok s c)] (w : Pool C A σ) :
    (a : PoolAction κ ω) → Decidable (w.Issues exec ok a)
  | .start _ => .isTrue trivial
  | .move i choose =>
    match h : w.jobs[i]? with
    | some (.issue c _) => decidable_of_iff (ok w.store c) (by simp only [Issues, h])
    | some (.done (some body)) => decidable_of_iff (body.Issues exec ok choose 0 w.store) (by simp only [Issues, h])
    | some (.done none) => .isTrue (by simp only [Issues, h])
    | some .raised => .isTrue (by simp only [Issues, h])
    | none => .isTrue (by simp only [Issues, h])

variable {exec job} {ok : σ → C → Prop}

theorem issues_of_forall (hok : ∀ s c, ok s c) (w : Pool C A σ) (a : PoolAction κ ω) : w.Issues exec ok a := by
  cases a with
  | start call => exact trivial
  | move i choose =>
    simp only [Issues]
    split
    · exact hok _ _
    · exact Script.issues_of_forall hok _
    · trivial

variable {P : σ → Prop} {w v : Pool C A σ}

theorem step_keeps (hP : ∀ w s c, P s → ok s c → P (exec w s c).2) {a : PoolAction κ ω} (hw : P w.store)
    (hok : w.Issues exec ok a) (h : w.step exec job a = some v) : P v.store := by
  cases a with
  | start call =>
    cases h
    exact hw
  | move i choose =>
    simp only [step] at h
    simp only [Issues] at hok
    split at h
    · rename_i c next hi
      rw [hi] at hok
      cases h
      exact hP _ _ _ hw hok
    · rename_i body hi
      rw [hi] at hok
      cases h
      exact Script.run_keeps hP body hw hok
    · cases h

theorem steps_keep (hP : ∀ w s c, P s → ok s c → P (exec w s c).2) {s₀ : σ}
    (h : Steps (system exec job s₀) (Issues exec ok) w v) (hw : P w.store) : P v.store := by
  induction h with
  | refl => exact hw
  | tail _ hok hstep ih => exact step_keeps hP ih hok hstep

end Pool

end

/-! ## What a script may rely on

Between two commands of a script the others move the store on, but only along
`ext`, and they keep an invariant. A script is safe where every command that it
may come to meets its condition on every such store. Where the commands that
meet it keep the invariant, safe scripts keep it together, in every interleaving.
-/

variable {C : Type} {A : C → Type} {α β σ ω κ : Type}

structure Rely (C : Type) (A : C → Type) (σ ω : Type) where
  exec : ω → σ → (c : C) → A c × σ
  ext : σ → σ → Prop
  inv : σ → Prop
  ok : σ → C → Prop

variable (R : Rely C A σ ω)

/-- From `s` on every command meets its condition, and the script ends as `Q` says. -/
def Script.Safe (Q : α → σ → Prop) : Script C A α → σ → Prop
  | .done a, s => Q a s
  | .raised, _ => True
  | .issue c next, s => ∀ s', R.ext s s' → R.inv s' → R.ok s' c ∧ ∀ w, (next (R.exec w s' c).1).Safe Q (R.exec w s' c).2

def Body.Safe (b : Body C A) (s : σ) : Prop :=
  Script.Safe R (fun left s => ∀ t ∈ left, Script.Safe R (fun _ _ => True) t s) b s

def Job.Safe (j : Job C A) (s : σ) : Prop := Script.Safe R (fun b s => ∀ body ∈ b, Body.Safe R body s) j s

/-- Commands that meet their condition, and the run's, move the store along and keep the invariant. -/
structure Rely.Kept (cond : σ → C → Prop) : Prop where
  refl : ∀ s, R.ext s s
  trans : ∀ s s' s'', R.ext s s' → R.ext s' s'' → R.ext s s''
  ext : ∀ w s c, R.inv s → R.ok s c → cond s c → R.ext s (R.exec w s c).2
  inv : ∀ w s c, R.inv s → R.ok s c → cond s c → R.inv (R.exec w s c).2

variable {R} {cond : σ → C → Prop} {Q Q' : α → σ → Prop} {s s' : σ}

namespace Script

theorem Safe.weaken (h : ∀ a s, Q a s → Q' a s) (t : Script C A α) : ∀ {s : σ}, t.Safe R Q s → t.Safe R Q' s := by
  induction t with
  | done a => exact h _ _
  | raised => exact fun h => h
  | issue c next ih => exact fun ht s' hext hinv => ⟨(ht s' hext hinv).1, fun w => ih _ ((ht s' hext hinv).2 w)⟩

theorem Safe.bind {Q : β → σ → Prop} {f : α → Script C A β} (t : Script C A α) :
    ∀ {s : σ}, t.Safe R (fun a s => (f a).Safe R Q s) s → (t.bind f).Safe R Q s := by
  induction t with
  | done a => exact fun h => h
  | raised => exact fun h => h
  | issue c next ih => exact fun ht s' hext hinv => ⟨(ht s' hext hinv).1, fun w => ih _ ((ht s' hext hinv).2 w)⟩

theorem Safe.mono (hR : R.Kept cond) (hQ : ∀ a s s', R.ext s s' → Q a s → Q a s') (hext : R.ext s s') :
    ∀ {t : Script C A α}, t.Safe R Q s → t.Safe R Q s'
  | .done a, h => hQ a s s' hext h
  | .raised, h => h
  | .issue _ _, h => fun s'' hext' hinv => h s'' (hR.trans s s' s'' hext hext') hinv

theorem Safe.mono_true (hR : R.Kept cond) (hext : R.ext s s') {t : Script C A α} (h : t.Safe R (fun _ _ => True) s) :
    t.Safe R (fun _ _ => True) s' := h.mono hR (fun _ _ _ _ h => h) hext

/-- A safe script that runs as one step keeps the invariant. -/
theorem Safe.run (hR : R.Kept cond) {choose : Nat → ω} (t : Script C A α) : ∀ {n : Nat} {s : σ}, t.Safe R Q s → R.inv s →
    t.Issues R.exec cond choose n s → R.inv (t.run R.exec choose n s).2 ∧ R.ext s (t.run R.exec choose n s).2 ∧
      ∀ a, (t.run R.exec choose n s).1 = some a → Q a (t.run R.exec choose n s).2 := by
  induction t with
  | done a =>
    intro n s h hinv _
    exact ⟨hinv, hR.refl s, fun _ ha => Option.some.inj ha ▸ h⟩
  | raised =>
    intro n s _ hinv _
    exact ⟨hinv, hR.refl s, fun _ ha => nomatch ha⟩
  | issue c next ih =>
    intro n s h hinv hissues
    obtain ⟨hok, hnext⟩ := h s (hR.refl s) hinv
    obtain ⟨hinv', hext, hresult⟩ := ih _ (hnext (choose n)) (hR.inv (choose n) s c hinv hok hissues.1) hissues.2
    exact ⟨hinv', hR.trans _ _ _ (hR.ext (choose n) s c hinv hok hissues.1) hext, hresult⟩

theorem safe_embed {C' : Type} {A' : C' → Type} {R : Rely C' A' σ ω} {f : C → C'} {back : (c : C) → A' (f c) → A c}
    (hok : ∀ s c, R.ok s (f c)) (hQ : ∀ a s, Q a s) (t : Script C A α) : ∀ {s : σ}, (t.embed f back).Safe R Q s := by
  induction t with
  | done a => exact hQ a _
  | raised => exact trivial
  | issue c next ih => exact fun s' _ _ => ⟨hok s' c, fun _ => ih _⟩

end Script

theorem Body.Safe.mono (hR : R.Kept cond) (hext : R.ext s s') {b : Body C A} (h : Body.Safe R b s) : Body.Safe R b s' :=
  Script.Safe.mono hR (fun _ _ _ hext hleft t ht => (hleft t ht).mono_true hR hext) hext h

namespace Job

theorem Safe.mono (hR : R.Kept cond) (hext : R.ext s s') {j : Job C A} (h : Job.Safe R j s) : Job.Safe R j s' :=
  Script.Safe.mono hR (fun _ _ _ hext hbody b hb => (hbody b hb).mono hR hext) hext h

theorem safe_plain {t : Script C A Unit} (h : t.Safe R (fun _ _ => True) s) : Job.Safe R (Job.plain t) s :=
  Script.Safe.bind t (h.weaken (fun _ _ _ _ hb => nomatch hb) t)

theorem safe_embed {C' : Type} {A' : C' → Type} {R : Rely C' A' σ ω} {f : C → C'} {back : (c : C) → A' (f c) → A c}
    (hok : ∀ s c, R.ok s (f c)) (j : Job C A) {s : σ} : Job.Safe R (Job.embed f back j) s := by
  refine Script.Safe.bind _ (Script.safe_embed hok (fun b s body hbody => ?_) j)
  obtain ⟨b', -, rfl⟩ := Option.map_eq_some_iff.mp hbody
  refine Script.Safe.bind _ (Script.safe_embed hok (fun left s t ht => ?_) b')
  obtain ⟨t', -, rfl⟩ := List.mem_map.mp ht
  exact Script.safe_embed hok (fun _ _ => trivial) t'

end Job

theorem mem_set_append {γ : Type} {l r : List γ} {i : Nat} {x y : γ} (h : y ∈ l.set i x ++ r) : y ∈ l ∨ y = x ∨ y ∈ r := by
  rcases List.mem_append.mp h with h | h
  · rcases List.mem_or_eq_of_mem_set h with h | h
    · exact .inl h
    · exact .inr (.inl h)
  · exact .inr (.inr h)

variable {job : κ → Job C A} {v : Pool C A σ}

theorem Pool.step_safe (hR : R.Kept cond) (hjob : ∀ k s, R.inv s → Job.Safe R (job k) s) {w : Pool C A σ}
    {a : PoolAction κ ω} (hinv : R.inv w.store) (hsafe : ∀ j ∈ w.jobs, Job.Safe R j w.store)
    (hissues : w.Issues R.exec cond a) (h : w.step R.exec job a = some v) :
    R.inv v.store ∧ ∀ j ∈ v.jobs, Job.Safe R j v.store := by
  cases a with
  | start call =>
    cases h
    refine ⟨hinv, fun j hj => ?_⟩
    rcases List.mem_append.mp hj with hj | hj
    · exact hsafe j hj
    · rw [List.mem_singleton.mp hj]
      exact hjob call _ hinv
  | move i choose =>
    simp only [step] at h
    simp only [Issues] at hissues
    split at h
    · rename_i c next hi
      rw [hi] at hissues
      cases h
      have hj : Job.Safe R (.issue c next) w.store := hsafe _ (List.mem_of_getElem? hi)
      obtain ⟨hok, hnext⟩ := hj w.store (hR.refl _) hinv
      have hext := hR.ext (choose 0) w.store c hinv hok hissues
      refine ⟨hR.inv (choose 0) w.store c hinv hok hissues, fun j hj => ?_⟩
      rcases List.mem_or_eq_of_mem_set hj with hj | rfl
      · exact (hsafe j hj).mono hR hext
      · exact hnext (choose 0)
    · rename_i body hi
      rw [hi] at hissues
      cases h
      have hj : Job.Safe R (.done (some body)) w.store := hsafe _ (List.mem_of_getElem? hi)
      obtain ⟨hinv', hext, hleft⟩ := Script.Safe.run hR body (hj body rfl) hinv hissues
      refine ⟨hinv', fun j hj => ?_⟩
      rcases mem_set_append hj with hj | rfl | hj
      · exact (hsafe j hj).mono hR hext
      · exact fun _ hb => nomatch hb
      obtain ⟨t, ht, rfl⟩ := List.mem_map.mp hj
      cases hrun : (body.run R.exec choose 0 w.store).1 with
      | none => exact nomatch hrun ▸ ht
      | some left =>
        rw [hrun] at ht
        exact Job.safe_plain (hleft left hrun t ht)
    · cases h

/-- **Rely rule.** Safe jobs keep the invariant in every run whose commands meet the run's condition. -/
theorem Pool.steps_safe (hR : R.Kept cond) (hjob : ∀ k s, R.inv s → Job.Safe R (job k) s) {s₀ : σ}
    (h : Reachable (system R.exec job s₀) (Issues R.exec cond) v) (hinv : R.inv s₀) : R.inv v.store := by
  have hall : R.inv v.store ∧ ∀ j ∈ v.jobs, Job.Safe R j v.store := by
    refine h.invariant (I := fun v => R.inv v.store ∧ ∀ j ∈ v.jobs, Job.Safe R j v.store) ⟨hinv, fun _ hj => absurd hj List.not_mem_nil⟩ ?_
    exact fun _ _ _ hi hok hst => step_safe hR hjob hi.1 hi.2 hok hst
  exact hall.1

end Lib
