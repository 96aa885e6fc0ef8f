import AgentsRemember.Worktree.Integrate

/-!
# One rule for each command of an integration

`Ends m w D R`: from `w`, `m` returns as `D` says or raises as `R` says. A run
whose process dies returns nothing and is not spoken of.
-/

namespace AgentsRemember.Worktree

open Lib Lib.Git Lib.Program

variable {C M α β : Type}

def Ends (m : Integration C M α) (w : IntegrateWorld C M) (D : α → IntegrateWorld C M → Prop)
    (R : IntegrateWorld C M → Prop) : Prop :=
  wp m ⟨D, fun _ => R, fun _ => True⟩ w

variable {m : Integration C M α} {f : α → Integration C M β} {w : IntegrateWorld C M}
  {D D' : α → IntegrateWorld C M → Prop} {R R' : IntegrateWorld C M → Prop}

theorem Ends.mono (h : Ends m w D R) (hd : ∀ a t, D a t → D' a t) (hr : ∀ t, R t → R' t) : Ends m w D' R' :=
  wp_mono h hd (fun _ => hr) fun _ h => h

theorem Ends.raised {n k : Nat} {e : IntegrateError} {t : IntegrateWorld C M} (h : Ends m w D R)
    (hm : m n w = .raised e k t) : R t := by
  have hn := h n
  rw [hm] at hn
  exact hn

theorem Ends.bind {D' : β → IntegrateWorld C M → Prop} (h : Ends m w D R) (hf : ∀ a t, D a t → Ends (f a) t D' R)  :
    Ends (m >>= f) w D' R :=
  wp_seq h hf (fun _ _ h => h) fun _ h => h

/-- What follows a command is judged in the worlds the command ends in. -/
theorem Ends.seq {D : β → IntegrateWorld C M → Prop} (h : Ends m w (fun a t => Ends (f a) t D R) R) : Ends (m >>= f) w D R :=
  h.bind fun _ _ h => h

theorem Ends.next {D' : β → IntegrateWorld C M → Prop} (h : Ends m w D R) (hr : ∀ t, R t → R' t)
    (hf : ∀ a t, D a t → Ends (f a) t D' R') : Ends (m >>= f) w D' R' :=
  (h.mono (fun _ _ h => h) hr).bind hf

theorem Ends.and (h : Ends m w D R) (h' : Ends m w D' R') : Ends m w (fun a t => D a t ∧ D' a t) fun t => R t ∧ R' t :=
  wp_mono (wp_and h h') (fun _ _ h => h) (fun _ _ h => h) fun _ h => h.1

theorem Ends.given {P : Prop} (h : P → Ends m w D R) : Ends m w (fun a t => P → D a t) fun t => P → R t := by
  by_cases hp : P
  · exact (h hp).mono (fun _ _ hd _ => hd) fun _ hr _ => hr
  intro n
  cases hr : m n w with
  | done a k t => exact fun h => absurd h hp
  | raised e k t => exact fun h => absurd h hp
  | died t => trivial

theorem ends_pure {a : α} (h : D a w) : Ends (pure a) w D R := wp_pure h

theorem ends_raise {e : IntegrateError} (h : R w) : Ends (raise e : Integration C M α) w D R := wp_raise h

theorem ends_read {g : IntegrateWorld C M → α} (h : D (g w) w) : Ends (read g) w D R := wp_read h

theorem ends_change {g : IntegrateWorld C M → IntegrateWorld C M} {D : Unit → IntegrateWorld C M → Prop} (h : D () (g w)) :
    Ends (change g) w D R := wp_change h

theorem ends_map {g : α → β} {D : β → IntegrateWorld C M → Prop} (h : Ends m w (fun a => D (g a)) R) :
    Ends (g <$> m) w D R := wp_seq h (fun _ _ h => wp_pure h) (fun _ _ h => h) fun _ h => h

theorem ends_require {holds : Bool} {text : String} {D : Unit → IntegrateWorld C M → Prop} (hd : holds = true → D () w)
    (hr : holds = false → R w) : Ends (require holds text : Integration C M Unit) w D R := by
  unfold require
  cases holds with
  | true => exact ends_pure (hd rfl)
  | false => exact ends_raise (hr rfl)

theorem ends_ensure {cleanUp : Integration C M Unit} (h : Ends m w (fun a t => Ends cleanUp t (fun _ u => D a u) R)
    fun t => Ends cleanUp t (fun _ u => R u) R) : Ends (ensure m cleanUp) w D R :=
  wp_ensure (wp_mono h (fun _ _ h => h) (fun _ _ h => wp_mono h (fun _ _ h => h) (fun _ _ h => h) fun _ h => h)
    fun _ h => h)

theorem ends_rescue {handler : IntegrateError → Integration C M α}
    (h : Ends m w D fun t => ∀ e, Ends (handler e) t D R) : Ends (rescue m handler) w D R :=
  wp_rescue (wp_mono h (fun _ _ h => h) (fun e _ h => h e) fun _ h => h)

variable {E : IntegrateEnv C M} {undo : Bool} {name : GitName}

def Works (E : IntegrateEnv C M) (undo : Bool) (name : GitName) : Prop := ∀ n, E.fate ⟨undo, name⟩ n = .works

theorem Works.fate {n : Nat} {x : Fate} (h : Works E undo name) (hx : E.fate ⟨undo, name⟩ n = x) (hne : x ≠ .works) : False :=
  hne (hx ▸ h n)

theorem ends_runGit {effect : IntegrateWorld C M → Bool × IntegrateWorld C M} {D : Bool → IntegrateWorld C M → Prop}
    (hw : D (effect w).1 (effect w).2) (hf : ¬ Works E undo name → D false w) (hr : ¬ Works E undo name → R w) :
    Ends (runGit E undo name effect) w D R :=
  wp_command hw (fun ⟨_, h⟩ => hf fun hx => hx.fate h (by decide)) (fun ⟨_, h⟩ => hr fun hx => hx.fate h (by decide))
    fun _ => trivial

theorem ends_requireGit {effect : IntegrateWorld C M → Bool × IntegrateWorld C M} {D : Unit → IntegrateWorld C M → Prop}
    (hw : (effect w).1 = true → D () (effect w).2) (hb : (effect w).1 = false → R (effect w).2) (hr : R w) :
    Ends (requireGit E undo name effect) w D R := by
  unfold requireGit
  refine Ends.bind (D := fun ok t => if ok then D () t else R t) (ends_runGit ?_ (fun _ => hr) fun _ => hr) ?_
  · cases hok : (effect w).1 with
    | true => exact hw hok
    | false => exact hb hok
  intro ok t h
  cases ok with
  | true => exact ends_pure h
  | false => exact ends_raise h

theorem ends_requireRead {g : IntegrateWorld C M → Option α} (hd : ∀ a, g w = some a → D a w)
    (hr : ¬ Works E undo name ∨ g w = none → R w) : Ends (requireRead E undo name g) w D R := by
  unfold requireRead
  refine Ends.bind (D := fun o t => o.elim (R t) fun a => D a t) ?_ ?_
  · refine wp_command ?_ (fun ⟨_, h⟩ => hr (.inl fun hx => hx.fate h (by decide)))
      (fun ⟨_, h⟩ => hr (.inl fun hx => hx.fate h (by decide))) fun _ => trivial
    cases hg : g w with
    | none => exact hr (.inr hg)
    | some a => exact hd a hg
  intro o t h
  cases o with
  | none => exact ends_raise h
  | some a => exact ends_pure h

theorem ends_probe {g : IntegrateWorld C M → Bool} {D : Bool → IntegrateWorld C M → Prop}
    (hd : ∀ b, (b = true → g w = true) → (Works E undo name → b = g w) → D b w) (hr : ¬ Works E undo name → R w) :
    Ends (probe E undo name g) w D R :=
  wp_command (hd _ id fun _ => rfl)
    (fun ⟨_, h⟩ => hd false (fun h => nomatch h) fun hx => (hx.fate h (by decide)).elim)
    (fun ⟨_, h⟩ => hr fun hx => hx.fate h (by decide)) fun _ => trivial

/-! ## What a program keeps -/

def Keeps {γ : Type} (g : IntegrateWorld C M → γ) (m : Integration C M α) : Prop :=
  ∀ w, Ends m w (fun _ t => g t = g w) fun t => g t = g w

section
variable {γ δ : Type} {g : IntegrateWorld C M → γ}

theorem Keeps.bind (h : Keeps g m) (hf : ∀ a, Keeps g (f a)) : Keeps g (m >>= f) := by
  intro w
  refine Ends.bind (h w) fun a t ht => ?_
  exact (hf a t).mono (fun _ _ hu => hu.trans ht) fun _ hu => hu.trans ht

theorem Keeps.comp {k : γ → δ} (h : Keeps g m) : Keeps (fun w => k (g w)) m :=
  fun w => (h w).mono (fun _ _ ht => congrArg k ht) fun _ ht => congrArg k ht

theorem Keeps.map {k : α → β} (h : Keeps g m) : Keeps g (k <$> m) := fun w => ends_map (h w)

theorem keeps_pure {a : α} : Keeps g (pure a : Integration C M α) := fun _ => ends_pure rfl

theorem keeps_raise {e : IntegrateError} : Keeps g (raise e : Integration C M α) := fun _ => ends_raise rfl

theorem keeps_read {k : IntegrateWorld C M → α} : Keeps g (read k) := fun _ => ends_read rfl

theorem keeps_ite {b : Bool} {m m' : Integration C M α} (h : Keeps g m) (h' : Keeps g m') : Keeps g (if b then m else m') := by
  cases b
  · exact h'
  · exact h

theorem keeps_whenever {b : Bool} {m : Integration C M Unit} (h : Keeps g m) : Keeps g (whenever b m) :=
  keeps_ite h keeps_pure

theorem keeps_change {k : IntegrateWorld C M → IntegrateWorld C M} (h : ∀ w, g (k w) = g w) : Keeps g (change k) :=
  fun w => ends_change (h w)

theorem keeps_require {holds : Bool} {text : String} : Keeps g (require holds text : Integration C M Unit) :=
  fun _ => ends_require (fun _ => rfl) fun _ => rfl

theorem keeps_requireRead {k : IntegrateWorld C M → Option α} : Keeps g (requireRead E undo name k) :=
  fun _ => ends_requireRead (fun _ _ => rfl) fun _ => rfl

theorem keeps_probe {k : IntegrateWorld C M → Bool} : Keeps g (probe E undo name k) :=
  fun _ => ends_probe (fun _ _ _ => rfl) fun _ => rfl

theorem keeps_runGit {effect : IntegrateWorld C M → Bool × IntegrateWorld C M} (h : ∀ w, g (effect w).2 = g w) :
    Keeps g (runGit E undo name effect) := fun w => ends_runGit (h w) (fun _ => rfl) fun _ => rfl

theorem keeps_requireGit {effect : IntegrateWorld C M → Bool × IntegrateWorld C M} (h : ∀ w, g (effect w).2 = g w) :
    Keeps g (requireGit E undo name effect) := fun w => ends_requireGit (fun _ => h w) (fun _ => h w) rfl

end

/-! ## Programs that touch no repository -/

def repos (w : IntegrateWorld C M) : Repo Place C × Repo Place M × Bool := (w.code, w.memory, w.sourceMerged)

theorem keeps_blocked (status : String) (persist : Bool) :
    Keeps repos (blocked status persist : Integration C M String) := by
  unfold blocked
  exact .bind (keeps_whenever (keeps_change fun _ => rfl)) fun _ => keeps_pure

theorem keeps_lineageRefuses : Keeps repos (lineageRefuses E) := .bind keeps_probe fun _ => keeps_pure

theorem keeps_loadLedger {γ : Type} {g : IntegrateWorld C M → γ} (i : Place) : Keeps g (loadLedger E i) := by
  refine .bind keeps_read fun files => ?_
  cases E.memoryMd files with
  | none => exact keeps_raise
  | some text =>
    cases hl : MemoryLedger.parseLedgerText text with
    | error e =>
      simp only [hl]
      exact keeps_raise
    | ok ledger =>
      simp only [hl]
      exact keeps_pure

theorem keeps_qualityGate {c : IntegrateContract C M} : Keeps repos (qualityGate E c) := by
  unfold qualityGate
  split
  · exact keeps_pure
  · exact keeps_probe

variable {c : IntegrateContract C M} {args : IntegrateArgs C M} {sources : IntegrationSources C M} [DecidableEq C]
  [DecidableEq M]

theorem keeps_sourcesMoved : Keeps repos (sourcesMoved E c sources) := by
  refine .bind keeps_requireRead fun code => ?_
  cases c.external with
  | none => exact keeps_pure
  | some x => exact .bind keeps_requireRead fun _ => keeps_pure

theorem keeps_sourceStateBlock : Keeps repos (sourceStateBlock E c sources) :=
  .bind keeps_lineageRefuses fun _ => keeps_ite (.map (keeps_blocked _ _))
    (.bind keeps_sourcesMoved fun _ => keeps_ite (.map (keeps_blocked _ _)) keeps_pure)

/-! ## Validation -/

omit [DecidableEq C] [DecidableEq M] in
theorem ends_check {g : IntegrateWorld C M → Option α} {test : α → Bool} {text : String} {rest : Integration C M β}
    {D : β → IntegrateWorld C M → Prop} (h : ∀ a, g w = some a → test a = true → Ends rest w D R) (hr : R w) :
    Ends (requireRead E undo name g >>= fun a => require (test a) text >>= fun _ => rest) w D R := by
  refine Ends.bind (D := fun a t => t = w ∧ g w = some a) (ends_requireRead (fun a ha => ⟨rfl, ha⟩) fun _ => hr) ?_
  rintro a t ⟨rfl, ha⟩
  refine Ends.bind (D := fun _ u => u = t ∧ test a = true) (ends_require (fun ht => ⟨rfl, ht⟩) fun _ => hr) ?_
  rintro - u ⟨rfl, ht⟩
  exact h a ha ht

structure ReadyMemory (c : IntegrateContract C M) (x : ExternalMemory M) (w : IntegrateWorld C M) : Prop where
  source : w.memory.current .source = some x.sourceBranch
  task : w.memory.current .task = some x.workBranch
  clean : w.memory.isClean .source = true
  head : c.ledgerCommit = some (w.memory.head .task)

structure Ready (c : IntegrateContract C M) (w : IntegrateWorld C M) : Prop where
  source : w.code.current .source = some c.codeSourceBranch
  task : w.code.current .task = some c.codeWorkBranch
  head : c.codeCommit = some (w.code.head .task)
  memory : ∀ x, c.external = some x → ReadyMemory c x w

omit [DecidableEq C] in
theorem ends_validateMemory (x : ExternalMemory M) : Ends (validateIntegrateMemoryContract E c x) w
    (fun _ t => t = w ∧ ReadyMemory c x w) fun t => t = w := by
  unfold validateIntegrateMemoryContract
  refine Ends.bind (D := fun _ t => t = w) (ends_require (fun _ => rfl) fun _ => rfl) ?_
  rintro - t rfl
  refine ends_check (fun source hs hsource => ?_) rfl
  cases hs
  refine ends_check (fun task ht htask => ?_) rfl
  cases ht
  refine ends_check (fun clean hc hclean => ?_) rfl
  cases hc
  refine ends_check (fun _ _ _ => ?_) rfl
  refine Ends.bind (D := fun a u => u = t ∧ a = t.memory.head .task)
    (ends_requireRead (fun a ha => ⟨rfl, (Option.some.inj ha).symm⟩) fun _ => rfl) ?_
  rintro a u ⟨rfl, rfl⟩
  exact ends_require (fun h => ⟨rfl, of_decide_eq_true hsource, of_decide_eq_true htask, hclean,
    (of_decide_eq_true h).symm⟩) fun _ => rfl

theorem ends_validate : Ends (validateIntegrateContract E c) w (fun _ t => t = w ∧ Ready c w) fun t => t = w := by
  unfold validateIntegrateContract
  refine Ends.bind (D := fun _ t => t = w) (ends_require (fun _ => rfl) fun _ => rfl) ?_
  rintro - t rfl
  refine Ends.bind (D := fun _ u => u = t) (ends_require (fun _ => rfl) fun _ => rfl) ?_
  rintro - t rfl
  refine Ends.bind (D := fun _ u => u = t) (ends_require (fun _ => rfl) fun _ => rfl) ?_
  rintro - t rfl
  refine ends_check (fun source hs hsource => ?_) rfl
  cases hs
  refine ends_check (fun task ht htask => ?_) rfl
  cases ht
  refine ends_check (fun _ _ _ => ?_) rfl
  refine ends_check (fun _ _ _ => ?_) rfl
  refine ends_check (fun head hh hhead => ?_) rfl
  cases hh
  cases hx : c.external with
  | none =>
    exact ends_pure ⟨rfl, of_decide_eq_true hsource, of_decide_eq_true htask, (of_decide_eq_true hhead).symm,
      fun x h => nomatch h.symm.trans hx⟩
  | some x =>
    refine (ends_validateMemory x).mono ?_ fun _ h => h
    rintro - u ⟨rfl, hmemory⟩
    refine ⟨rfl, of_decide_eq_true hsource, of_decide_eq_true htask, (of_decide_eq_true hhead).symm, fun x' h => ?_⟩
    cases h.symm.trans hx
    exact hmemory

end AgentsRemember.Worktree
