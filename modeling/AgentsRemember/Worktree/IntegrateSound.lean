import AgentsRemember.Worktree.IntegrateSteps
import AgentsRemember.Worktree.SyncSound

/-!
# An integration is all or nothing

Up to the merge of the sources a call moves only the task's checkouts, along
their branches or along the scratch branch, and what undoes takes them back from
wherever they strayed. The merge lands both sides or none.
-/

namespace AgentsRemember.Worktree

set_option linter.unusedSectionVars false

open Lib Lib.Git Lib.Program

section
variable {C M : Type} [DecidableEq C] [DecidableEq M] {E : IntegrateEnv C M} {c : IntegrateContract C M}
  {args : IntegrateArgs C M} {sources : IntegrationSources C M} {w t : IntegrateWorld C M}

/-! ## Restoring -/

/-- Branches and checkouts are where they were. -/
def RefsKept (w t : IntegrateWorld C M) : Prop := t.code.refs = w.code.refs ∧ t.memory.refs = w.memory.refs

def Never (_ : IntegrateWorld C M) : Prop := False

variable {undo b : Bool} {name : GitName} {R : IntegrateWorld C M → Prop} {α : Type} {x : ExternalMemory M}
  {u v : IntegrateWorld C M} {m : Integration C M α} {code : Option (Commit C)} {commits : IntegratedCommits C M}

theorem ends_works {effect : IntegrateWorld C M → Bool × IntegrateWorld C M} {D : Bool → IntegrateWorld C M → Prop}
    (h : Works E undo name) (hd : D (effect t).1 (effect t).2) : Ends (runGit E undo name effect) t D R :=
  ends_runGit hd (fun hx => absurd h hx) fun hx => absurd h hx

theorem ends_workingRead {g : IntegrateWorld C M → α} {D : α → IntegrateWorld C M → Prop} (h : Works E undo name)
    (hd : D (g t) t) : Ends (requireRead E undo name fun w => some (g w)) t D R := by
  refine ends_requireRead (fun a ha => ?_) fun hx => ?_
  · cases ha
    exact hd
  rcases hx with hx | hx
  · exact absurd h hx
  · cases hx

theorem orStay_snd {ι T : Type} (r : Repo ι T) (o : Option (Repo ι T)) : (orStay r o).2 = o.getD r := by
  cases o <;> rfl

structure CodeStrayed (c : IntegrateContract C M) (w t : IntegrateWorld C M) : Prop where
  strayed : Strayed w.code .task c.codeWorkBranch t.code
  stopped : t.code.head .task = w.code.head .task → t.code.refs = w.code.refs

theorem ends_restoreCode (hu : ∀ name, Works E true name) (hb : w.code.current .task = some c.codeWorkBranch)
    (h : t.code.refs = w.code.refs ∨ CodeStrayed c w t) :
    Ends (restoreReplayedCodeWorktree E (w.code.head .task)) t
      (fun _ u => u.code.refs = w.code.refs ∧ u.memory = t.memory) Never := by
  unfold restoreReplayedCodeWorktree codeHead
  refine Ends.seq (ends_workingRead (hu _) ?_)
  by_cases heq : t.code.head .task = w.code.head .task
  · rw [if_pos heq]
    refine ends_pure ⟨?_, rfl⟩
    rcases h with h | h
    · exact h
    · exact h.stopped heq
  rw [if_neg heq]
  rcases h with h | h
  · exact absurd ((refs_eq h).2 .task).2 heq
  refine Ends.seq (ends_works (hu _) (Ends.seq (ends_works (hu _) (ends_require (fun _ => ⟨?_, rfl⟩) fun hf => nomatch hf))))
  simp only [onCode, orStay_snd]
  exact h.strayed.reset hb

def MemoryStrayed (x : ExternalMemory M) (w t : IntegrateWorld C M) : Prop :=
  w.memory.branches (integrationBranch x) = none ∧ Strayed w.memory .task (integrationBranch x) t.memory

theorem whenever_false (h : b = false) (m : Integration C M Unit) : whenever b m = pure () := by
  rw [h]
  rfl

theorem whenever_true (h : b = true) (m : Integration C M Unit) : whenever b m = m := by
  rw [h]
  rfl

theorem ends_restoreMemory_home (hu : ∀ name, Works E true name) (hb : w.memory.current .task = some x.workBranch)
    (h : t.memory.refs = w.memory.refs) :
    Ends (restoreReplayedMemoryWorktree E ⟨some x.workBranch, w.memory.head .task, integrationBranch x,
        (w.memory.branches (integrationBranch x)).isSome⟩) t
      (fun _ u => u.code = t.code ∧ u.memory.refs = w.memory.refs) Never := by
  unfold restoreReplayedMemoryWorktree
  have hcur : t.memory.current .task = some x.workBranch := ((refs_eq h).2 .task).1.trans hb
  refine Ends.bind (D := fun _ v => v.code = t.code ∧ v.memory = t.memory) (ends_works (hu _) ⟨rfl, ?_⟩) ?_
  · simp only [onMemory, rebaseAbort_on hcur]
    rfl
  rintro - v ⟨hvc, hvm⟩
  refine Ends.seq (ends_workingRead (hu _) ?_)
  rw [hvm, hcur, whenever_false (by simp)]
  refine Ends.seq (ends_pure ?_)
  have hreset : (v.memory.resetHard .task (w.memory.head .task)).refs = w.memory.refs := by
    refine refs_reset_moved (c := w.memory.head .task) ?_
    rw [hvm, h, Refs.put_self]
  refine Ends.bind (D := fun ok y => ok = true ∧ y.code = t.code ∧ y.memory.refs = w.memory.refs)
    (ends_works (hu _) ⟨rfl, hvc, hreset⟩) ?_
  rintro ok y ⟨rfl, hyc, hym⟩
  refine Ends.seq (ends_require (fun _ => ?_) fun hf => nomatch hf)
  cases hscratch : w.memory.branches (integrationBranch x) with
  | some content => exact ends_pure ⟨hyc, hym⟩
  | none =>
    rw [whenever_true (by simp)]
    refine Ends.seq (ends_probe (fun b _ hval => ?_) fun hx => absurd (hu _) hx)
    have hsame : y.memory.branches (integrationBranch x) = none := (congrFun (refs_eq hym).1 _).trans hscratch
    rw [hval (hu _), hsame]
    exact ends_pure ⟨hyc, hym⟩

theorem ends_restoreMemory (hu : ∀ name, Works E true name) (hb : w.memory.current .task = some x.workBranch)
    (h : t.memory.refs = w.memory.refs ∨ MemoryStrayed x w t) :
    Ends (restoreReplayedMemoryWorktree E ⟨some x.workBranch, w.memory.head .task, integrationBranch x,
        (w.memory.branches (integrationBranch x)).isSome⟩) t
      (fun _ u => u.code = t.code ∧ u.memory.refs = w.memory.refs) Never := by
  rcases h with h | ⟨hnone, hstray⟩
  · exact ends_restoreMemory_home hu hb h
  unfold restoreReplayedMemoryWorktree
  obtain ⟨d, habort⟩ := hstray.abort (w.memory.free_absent .task hnone)
  refine Ends.bind (D := fun _ v => v.code = t.code ∧ v.memory.refs = w.memory.refs.put .task (some (integrationBranch x)) d)
    (ends_works (hu _) ⟨rfl, ?_⟩) ?_
  · rw [onMemory, orStay_snd]
    exact habort
  rintro - v ⟨hvc, hvm⟩
  have hcur : v.memory.current .task = some (integrationBranch x) := by rw [current_eq hvm, Refs.place_put]
  obtain ⟨y, hy, u, hdel, hurefs, hthere⟩ := Strayed.leave hb hnone hvm
  have hne : some (integrationBranch x) ≠ some x.workBranch := by
    intro heq
    rw [Option.some.inj heq] at hnone
    rw [w.memory.points .task _ hb] at hnone
    cases hnone
  refine Ends.seq (ends_workingRead (hu _) ?_)
  rw [hcur, whenever_true (decide_eq_true hne)]
  refine Ends.bind (D := fun _ z => z.code = t.code ∧ z.memory = y) ?_ ?_
  · refine Ends.seq (ends_works (hu _) ?_)
    simp only [onMemory, Option.bind_some, hy]
    exact ends_require (fun _ => ⟨hvc, rfl⟩) fun hf => nomatch hf
  rintro - a ⟨hac, ham⟩
  refine Ends.bind (D := fun ok z => ok = true ∧ z.code = t.code ∧ z.memory = y.resetHard .task (w.memory.head .task))
    (ends_works (hu _) ⟨rfl, hac, by simp only [onMemory, ham]⟩) ?_
  rintro ok b ⟨rfl, hbc, hbm⟩
  refine Ends.seq (ends_require (fun _ => ?_) fun hf => nomatch hf)
  rw [whenever_true (by simp [hnone])]
  refine Ends.seq (ends_probe (fun there _ hval => ?_) fun hx => absurd (hu _) hx)
  obtain rfl : there = true := by
    rw [hval (hu _), hbm]
    exact Option.isSome_iff_ne_none.mpr hthere
  refine Ends.seq (ends_works (hu _) ?_)
  simp only [onMemory, hbm, hdel]
  exact ends_require (fun _ => ⟨hbc, hurefs⟩) fun hf => nomatch hf

/-! ## Replaying -/

structure Sourced (c : IntegrateContract C M) (sources : IntegrationSources C M) (w : IntegrateWorld C M) : Prop where
  code : w.code.branches c.codeSourceBranch = some sources.currentCodeSource
  codeReplay : sources.codeReplayRequired = !(c.codeCommit.any (isAncestor sources.currentCodeSource))
  memory : ∀ x, c.external = some x → ∃ m, sources.currentMemorySource = some m ∧
    sources.memoryReplayRequired = !(c.ledgerCommit.any (isAncestor m))

def CodeAlong (c : IntegrateContract C M) (args : IntegrateArgs C M) (sources : IntegrationSources C M)
    (w t : IntegrateWorld C M) : Prop :=
  t.code.refs = w.code.refs ∨ (args.strategy = "replay" ∧ sources.codeReplayRequired = true) ∧
    ∃ d, t.code.refs = w.code.refs.put .task (some c.codeWorkBranch) d

def CodeLeft (c : IntegrateContract C M) (args : IntegrateArgs C M) (sources : IntegrationSources C M)
    (w t : IntegrateWorld C M) : Prop :=
  t.code.refs = w.code.refs ∨ (args.strategy = "replay" ∧ sources.codeReplayRequired = true) ∧ CodeStrayed c w t

theorem repos_eq (h : repos u = repos t) : u.code = t.code ∧ u.memory = t.memory ∧ u.sourceMerged = t.sourceMerged := by
  simpa [repos] using h

theorem refsKept_of_repos (h : repos t = repos w) : RefsKept w t := by
  obtain ⟨hc, hm, -⟩ := repos_eq h
  exact ⟨hc ▸ rfl, hm ▸ rfl⟩

theorem CodeAlong.left (hb : w.code.current .task = some c.codeWorkBranch) (h : CodeAlong c args sources w t) :
    CodeLeft c args sources w t := by
  rcases h with h | ⟨hflag, d, h⟩
  · exact .inl h
  refine .inr ⟨hflag, .along d h, fun heq => ?_⟩
  rw [head_eq h, Refs.place_put] at heq
  have hd : d = w.code.head .task := heq
  rw [h, hd, ← hb, Refs.put_self]

theorem codeLeft_congr (h : u.code = t.code) (hl : CodeLeft c args sources w t) : CodeLeft c args sources w u := by
  rcases hl with hl | ⟨hflag, hl, hs⟩
  · exact .inl (h ▸ hl)
  · exact .inr ⟨hflag, ⟨h ▸ hl, h ▸ hs⟩⟩

def OnlyCode (t u : IntegrateWorld C M) : Prop := u.memory = t.memory ∧ u.sourceMerged = t.sourceMerged

/-- How the code's part of a replay ends: it returns a commit only where it can go on from, another one than the
closed-out one only after a replay. -/
def CodePost (c : IntegrateContract C M) (args : IntegrateArgs C M) (sources : IntegrationSources C M)
    (w t : IntegrateWorld C M) (r : Except String (Option (Commit C))) (u : IntegrateWorld C M) : Prop :=
  (OnlyCode t u ∧ CodeLeft c args sources w u) ∧ ∀ code, r = .ok code → CodeAlong c args sources w u ∧
    (code ≠ c.codeCommit → args.strategy = "replay" ∧ sources.codeReplayRequired = true)

theorem ends_replayCode (hp : Works E false .isAncestor) (hr : Ready c w) (hs : Sourced c sources w) (ht : t.code = w.code)
    (hstrategy : args.strategy = "replay") : Ends (replayCodeIfNeeded E c sources) t
      (CodePost c args sources w t) (fun u => OnlyCode t u ∧ CodeLeft c args sources w u) := by
  have hstart : OnlyCode t t ∧ CodeLeft c args sources w t := ⟨⟨rfl, rfl⟩, .inl (ht ▸ rfl)⟩
  unfold replayCodeIfNeeded
  refine Ends.seq (ends_probe (fun b _ hval => ?_) fun hx => absurd hp hx)
  have hb := hval hp
  cases b with
  | true => exact ends_pure ⟨hstart, fun code h => ⟨.inl (ht ▸ rfl), fun hne => absurd (Except.ok.inj h).symm hne⟩⟩
  | false =>
    have hflag : sources.codeReplayRequired = true := by rw [hs.codeReplay, ← hb]; rfl
    have herror : ∀ v, OnlyCode t v → CodeLeft c args sources w v →
        Ends (.error <$> blocked "blocked-code-conflict" true : Integration C M (Except String (Option (Commit C)))) v
          (CodePost c args sources w t) (fun z => OnlyCode t z ∧ CodeLeft c args sources w z) := by
      intro v hv hleft
      have hkeep : ∀ z, repos z = repos v → OnlyCode t z ∧ CodeLeft c args sources w z := by
        intro z hz
        obtain ⟨hc, hm, hf⟩ := repos_eq hz
        exact ⟨⟨hm.trans hv.1, hf.trans hv.2⟩, codeLeft_congr hc hleft⟩
      refine ends_map ((keeps_blocked _ _ v).mono (fun status z hz => ?_) hkeep)
      exact ⟨hkeep z hz, fun code h => nomatch h⟩
    refine Ends.bind (D := fun b v => OnlyCode t v ∧ CodeLeft c args sources w v ∧ (b = true → CodeAlong c args sources w v))
      (ends_runGit ?_ (fun _ => ⟨hstart.1, hstart.2, fun h => nomatch h⟩) fun _ => hstart) ?_
    · simp only [onCode, ht, hs.code]
      obtain ⟨s, d, hreb, hrefs⟩ | ⟨s, d, hreb, hrefs, hanc, hst⟩ | hreb :=
        rebase_cases w.code .task E.codeTool sources.currentCodeSource sources.currentCodeSource
      · rw [hreb]
        have halong : CodeAlong c args sources w { t with code := s } := by
          refine .inr ⟨⟨hstrategy, hflag⟩, d, ?_⟩
          rw [← hr.task]
          exact hrefs
        exact ⟨⟨rfl, rfl⟩, halong.left hr.task, fun _ => halong⟩
      · rw [hreb]
        refine ⟨⟨rfl, rfl⟩, .inr ⟨⟨hstrategy, hflag⟩, ⟨.stopped (w.code.head .task) d ?_ ?_, fun heq => ?_⟩⟩, fun h => nomatch h⟩
        · rw [← hr.task, Refs.put_self]
          exact hrefs
        · rw [← hr.task]
          exact hst
        have hd : d = w.code.head .task := by
          rw [← heq, head_eq hrefs, Refs.place_put]
        rw [hr.head, Option.any_some, ← hd, isAncestor_iff.mpr hanc] at hb
        cases hb
      · rw [hreb]
        exact ⟨⟨rfl, rfl⟩, .inl rfl, fun h => nomatch h⟩
    · rintro ok v ⟨hv, hleft, halong⟩
      cases ok with
      | false => exact herror v hv hleft
      | true =>
        refine ends_map (ends_requireRead (fun a _ => ?_) fun _ => ⟨hv, hleft⟩)
        exact ⟨⟨hv, hleft⟩, fun code _ => ⟨halong rfl, fun _ => ⟨hstrategy, hflag⟩⟩⟩

theorem ends_integratedCode (hp : Works E false .isAncestor) (hr : Ready c w) (hs : Sourced c sources w)
    (ht : t.code = w.code) : Ends (integratedCodeCommit E c args sources) t (CodePost c args sources w t)
      (fun u => OnlyCode t u ∧ CodeLeft c args sources w u) := by
  have hstart : OnlyCode t t ∧ CodeLeft c args sources w t := ⟨⟨rfl, rfl⟩, .inl (ht ▸ rfl)⟩
  unfold integratedCodeCommit
  refine Ends.bind (D := CodePost c args sources w t) ?_ ?_
  · unfold replayedCode
    by_cases hstrategy : args.strategy = "replay"
    · rw [if_pos hstrategy]
      exact ends_replayCode hp hr hs ht hstrategy
    · rw [if_neg hstrategy]
      exact ends_pure ⟨hstart, fun code h => ⟨.inl (ht ▸ rfl), fun hne => absurd (Except.ok.inj h).symm hne⟩⟩
  intro r u hpost
  cases r with
  | error stop => exact ends_pure ⟨hpost.1, fun code h => nomatch h⟩
  | ok code =>
    refine Ends.seq (ends_probe (fun _ _ _ => Ends.seq (ends_require (fun _ => ?_) fun _ => hpost.1)) fun _ => hpost.1)
    exact ends_pure hpost

/-! ## Replaying the memory -/

def MemoryFlag (args : IntegrateArgs C M) (sources : IntegrationSources C M) : Prop :=
  args.strategy = "replay" ∧ sources.replayRequired = true

def MemoryAlong (x : ExternalMemory M) (args : IntegrateArgs C M) (sources : IntegrationSources C M)
    (w t : IntegrateWorld C M) : Prop :=
  t.memory.refs = w.memory.refs ∨ MemoryFlag args sources ∧ w.memory.branches (integrationBranch x) = none ∧
    ∃ d, t.memory.refs = w.memory.refs.put .task (some (integrationBranch x)) d

def MemoryLeft (x : ExternalMemory M) (args : IntegrateArgs C M) (sources : IntegrationSources C M)
    (w t : IntegrateWorld C M) : Prop :=
  t.memory.refs = w.memory.refs ∨ MemoryFlag args sources ∧ MemoryStrayed x w t

def OnlyMemory (t u : IntegrateWorld C M) : Prop := u.code = t.code ∧ u.sourceMerged = t.sourceMerged

theorem MemoryAlong.left (h : MemoryAlong x args sources w t) : MemoryLeft x args sources w t := by
  rcases h with h | ⟨hflag, hnone, d, h⟩
  · exact .inl h
  · exact .inr ⟨hflag, hnone, .along d h⟩

theorem memoryLeft_congr (h : u.memory = t.memory) (hl : MemoryLeft x args sources w t) :
    MemoryLeft x args sources w u := by
  rcases hl with hl | ⟨hflag, hnone, hl⟩
  · exact .inl (h ▸ hl)
  · exact .inr ⟨hflag, hnone, h ▸ hl⟩

def MemoryPost (x : ExternalMemory M) (args : IntegrateArgs C M) (sources : IntegrationSources C M) (w t : IntegrateWorld C M)
    (r : Except String (Option (Commit M) × Option (Commit M))) (u : IntegrateWorld C M) : Prop :=
  (OnlyMemory t u ∧ MemoryLeft x args sources w u) ∧ ∀ memory, r = .ok memory → MemoryAlong x args sources w u

def OnScratch (x : ExternalMemory M) (w t u : IntegrateWorld C M) : Prop :=
  OnlyMemory t u ∧ ∃ d, u.memory.refs = w.memory.refs.put .task (some (integrationBranch x)) d

theorem onScratch_of_repos (h : repos v = repos u) (hu : OnScratch x w t u) : OnScratch x w t v := by
  obtain ⟨hc, hm, hf⟩ := repos_eq h
  obtain ⟨⟨hcode, hmerged⟩, d, hrefs⟩ := hu
  exact ⟨⟨hc.trans hcode, hf.trans hmerged⟩, d, hm ▸ hrefs⟩

theorem Keeps.onScratch (h : Keeps repos m) (hu : OnScratch x w t u) :
    Ends m u (fun _ v => OnScratch x w t v) (OnScratch x w t) :=
  (h u).mono (fun _ _ hv => onScratch_of_repos hv hu) fun _ hv => onScratch_of_repos hv hu

theorem ends_commitIfDirty (h : OnScratch x w t u) :
    Ends (commitIfDirty E) u (fun _ v => OnScratch x w t v) (OnScratch x w t) := by
  unfold commitIfDirty
  refine Ends.bind (Keeps.onScratch keeps_requireRead h) fun dirty v hv => ?_
  cases dirty with
  | false => exact Keeps.onScratch keeps_requireRead hv
  | true =>
    refine Ends.bind (Keeps.onScratch (keeps_requireGit fun _ => rfl) hv) fun _ y hy => ?_
    have hcommit : OnScratch x w t { y with memory := y.memory.commit .task } := by
      obtain ⟨honly, d, hrefs⟩ := hy
      refine ⟨honly, .child (y.memory.head .task) (y.memory.checkout .task).files, (refs_moveHead ..).trans ?_⟩
      rw [current_eq hrefs, Refs.place_put, hrefs, Refs.put_put _ _ _ _ (.inr rfl)]
    refine Ends.bind (D := fun _ z => OnScratch x w t z)
      (ends_requireGit (fun _ => hcommit) (fun _ => hcommit) hy) fun _ z hz => ?_
    exact Keeps.onScratch keeps_requireRead hz

theorem ends_replayLedger (code : Option (Commit C)) (h : OnScratch x w t u) :
    Ends (replayLedger E code) u (fun _ v => OnScratch x w t v) (OnScratch x w t) := by
  unfold replayLedger
  refine Ends.bind (Keeps.onScratch keeps_requireRead h) fun content v hv => ?_
  refine Ends.bind (Keeps.onScratch (keeps_loadLedger _) hv) fun ledger y hy => ?_
  refine Ends.bind (D := fun _ z => OnScratch x w t z) ?_ fun _ z hz => ?_
  · unfold writeLedger
    split
    · exact ends_raise hy
    refine ends_change ?_
    obtain ⟨honly, d, hrefs⟩ := hy
    exact ⟨honly, d, (refs_setFiles ..).trans hrefs⟩
  refine Ends.bind (Keeps.onScratch (keeps_requireGit fun _ => rfl) hz) fun _ a ha => ?_
  refine Ends.bind (ends_commitIfDirty ha) fun _ b hb => ?_
  exact ends_pure hb

theorem ends_replayMemory (hp : Works E false .branchExists) (ht : t.memory = w.memory)
    (hflag : MemoryFlag args sources) (code : Option (Commit C)) :
    Ends (replayMemoryContent E c x code) t (MemoryPost x args sources w t)
      (fun u => OnlyMemory t u ∧ MemoryLeft x args sources w u) := by
  have hstart : OnlyMemory t t ∧ MemoryLeft x args sources w t := ⟨⟨rfl, rfl⟩, .inl (ht ▸ rfl)⟩
  have herror : ∀ v status, OnlyMemory t v → MemoryLeft x args sources w v →
      Ends (.error <$> blocked status true : Integration C M (Except String (Option (Commit M) × Option (Commit M)))) v
        (MemoryPost x args sources w t) (fun u => OnlyMemory t u ∧ MemoryLeft x args sources w u) := by
    intro v status hv hleft
    have hkeep : ∀ z, repos z = repos v → OnlyMemory t z ∧ MemoryLeft x args sources w z := by
      intro z hz
      obtain ⟨hc, hm, hf⟩ := repos_eq hz
      exact ⟨⟨hc.trans hv.1, hf.trans hv.2⟩, memoryLeft_congr hm hleft⟩
    refine ends_map ((keeps_blocked _ _ v).mono (fun status z hz => ?_) hkeep)
    exact ⟨hkeep z hz, fun memory h => nomatch h⟩
  unfold replayMemoryContent
  refine Ends.seq (ends_probe (fun b _ hval => ?_) fun hx => absurd hp hx)
  have hb : b = (w.memory.branches (integrationBranch x)).isSome := ht ▸ hval hp
  cases b with
  | true => exact herror t _ hstart.1 hstart.2
  | false =>
    have hnone : w.memory.branches (integrationBranch x) = none := Option.isNone_iff_eq_none.mp (by simpa using hb.symm)
    have hleft : ∀ v, OnScratch x w t v → OnlyMemory t v ∧ MemoryLeft x args sources w v :=
      fun v ⟨honly, d, hrefs⟩ => ⟨honly, .inr ⟨hflag, hnone, .along d hrefs⟩⟩
    refine Ends.bind (D := fun ok v => if ok then OnScratch x w t v else OnlyMemory t v ∧ MemoryLeft x args sources w v)
      (ends_runGit ?_ (fun _ => hstart) fun _ => hstart) ?_
    · simp only [onMemory, ht]
      cases hnew : c.memoryContentCommit.bind fun content => w.memory.checkoutNew .task E.memoryTool (integrationBranch x) content with
      | none => exact ⟨⟨rfl, rfl⟩, .inl rfl⟩
      | some s =>
        obtain ⟨content, -, hs⟩ := Option.bind_eq_some_iff.mp hnew
        exact ⟨⟨rfl, rfl⟩, content, (checkoutNew_some hs).2.1⟩
    intro ok v hv
    cases ok with
    | false => exact herror v _ hv.1 hv.2
    | true =>
      have hon : OnScratch x w t v := hv
      refine Ends.bind (D := fun ok y => (OnlyMemory t y ∧ MemoryLeft x args sources w y) ∧ (ok = true → OnScratch x w t y))
        (ends_runGit ?_ (fun _ => ⟨hleft v hon, fun h => nomatch h⟩) fun _ => hleft v hon) ?_
      · obtain ⟨honly, d, hrefs⟩ := hon
        have hstay : (OnlyMemory t v ∧ MemoryLeft x args sources w v) ∧ (false = true → OnScratch x w t v) :=
          ⟨⟨honly, .inr ⟨hflag, hnone, .along d hrefs⟩⟩, fun h => nomatch h⟩
        have hcur : v.memory.current .task = some (integrationBranch x) := by rw [current_eq hrefs, Refs.place_put]
        have hhead : v.memory.head .task = d := by rw [head_eq hrefs, Refs.place_put]
        simp only [onMemory]
        split
        · rename_i onto base _ _
          obtain ⟨s, e, hreb, hsrefs⟩ | ⟨s, e, hreb, hsrefs, -, hst⟩ | hreb := rebase_cases v.memory .task E.memoryTool onto base
          · rw [hreb]
            have halong : OnScratch x w t { v with memory := s } := by
              refine ⟨honly, e, hsrefs.trans ?_⟩
              rw [hcur, hrefs, Refs.put_put _ _ _ _ (.inr rfl)]
            exact ⟨hleft _ halong, fun _ => halong⟩
          · rw [hreb]
            refine ⟨⟨honly, .inr ⟨hflag, hnone, .stopped d e ?_ ?_⟩⟩, fun h => nomatch h⟩
            · rw [← hrefs]
              exact hsrefs
            · rw [← hcur, ← hhead]
              exact hst
          · rw [hreb]
            exact hstay
        · exact hstay
      · rintro ok y ⟨hy, halong⟩
        cases ok with
        | false => exact herror y _ hy.1 hy.2
        | true =>
          refine ends_map ((ends_replayLedger code (halong rfl)).mono (fun memory z hz => ?_) hleft)
          obtain ⟨honly, d, hrefs⟩ := hz
          exact ⟨hleft z ⟨honly, d, hrefs⟩, fun _ _ => .inr ⟨hflag, hnone, d, hrefs⟩⟩

theorem ends_integratedMemory (hp : Works E false .isAncestor) (hb : Works E false .branchExists)
    (hs : Sourced c sources w) (hx : c.external = some x) (ht : t.memory = w.memory)
    (hcode : code ≠ c.codeCommit → args.strategy = "replay" ∧ sources.codeReplayRequired = true) :
    Ends (integratedMemoryCommits E c args sources code) t (MemoryPost x args sources w t)
      (fun u => OnlyMemory t u ∧ MemoryLeft x args sources w u) := by
  obtain ⟨m, hm, hreq⟩ := hs.memory x hx
  have hstart : OnlyMemory t t ∧ MemoryLeft x args sources w t := ⟨⟨rfl, rfl⟩, .inl (ht ▸ rfl)⟩
  unfold integratedMemoryCommits
  simp only [hx, hm]
  refine Ends.bind (D := MemoryPost x args sources w t) ?_ ?_
  · unfold replayedMemory
    refine Ends.bind (D := fun b u => u = t ∧ (b = true → MemoryFlag args sources)) ?_ ?_
    · unfold memoryNeedsNewLedger
      by_cases hstrategy : args.strategy = "replay"
      · rw [if_pos hstrategy]
        by_cases hne : code = c.codeCommit
        · rw [if_neg (fun h => h hne)]
          refine ends_map (ends_probe (fun b _ hval => ⟨rfl, fun h => ⟨hstrategy, ?_⟩⟩) fun hx => absurd hp hx)
          rw [hval hp] at h
          simp [IntegrationSources.replayRequired, hreq, h]
        rw [if_pos hne]
        refine ends_pure ⟨rfl, fun _ => ⟨hstrategy, ?_⟩⟩
        simp [IntegrationSources.replayRequired, (hcode hne).2]
      · rw [if_neg hstrategy]
        exact ends_pure ⟨rfl, fun h => by cases h⟩
    · rintro b u ⟨rfl, hflag⟩
      cases b with
      | true => exact ends_replayMemory hb ht (hflag rfl) code
      | false => exact ends_pure ⟨hstart, fun _ _ => .inl (ht ▸ rfl)⟩
  · intro r u hpost
    cases r with
    | error stop => exact ends_pure ⟨hpost.1, fun _ h => by cases h⟩
    | ok memory =>
      refine Ends.seq (ends_probe (fun _ _ _ => Ends.seq (ends_require (fun _ => ?_) fun _ => hpost.1)) fun _ => hpost.1)
      exact ends_pure ⟨hpost.1, fun _ _ => hpost.2 memory rfl⟩

def Landed (E : IntegrateEnv C M) (c : IntegrateContract C M) (commits : IntegratedCommits C M) (t : IntegrateWorld C M) :
    Prop :=
  t.code.branches c.codeSourceBranch = some commits.code ∧
    ∀ x, c.external = some x → ∃ ledger, commits.ledger = some ledger ∧ t.memory.branches x.sourceBranch = some ledger ∧
      ∃ text l, E.memoryMd ledger.tree = some text ∧ MemoryLedger.parseLedgerText text = .ok l ∧
        landedLedgerMaps E commits l = true

theorem ends_loadLedger (i : Place) : Ends (loadLedger E i) t
    (fun l u => u = t ∧ ∃ text, E.memoryMd (t.memory.checkout i).files = some text ∧
      MemoryLedger.parseLedgerText text = .ok l) (fun u => u = t) := by
  unfold loadLedger
  refine Ends.seq (ends_read ?_)
  cases hmd : E.memoryMd (t.memory.checkout i).files with
  | none => exact ends_raise rfl
  | some text =>
    simp only
    cases hl : MemoryLedger.parseLedgerText text with
    | error e => exact ends_raise rfl
    | ok l => exact ends_pure ⟨rfl, text, rfl, hl⟩

theorem ends_mergeMemory (hcur : t.memory.current .source = some x.sourceBranch)
    (hclean : t.memory.isClean .source = true)
    (hanc : ∀ ledger, commits.ledger = some ledger → Ancestor (t.memory.head .source) ledger) :
    Ends (mergeMemory E commits) t
      (fun _ u => OnlyMemory t u ∧ ∃ ledger, commits.ledger = some ledger ∧ u.memory.branches x.sourceBranch = some ledger ∧
        ∃ text l, E.memoryMd ledger.tree = some text ∧ MemoryLedger.parseLedgerText text = .ok l ∧
          landedLedgerMaps E commits l = true)
      (fun u => OnlyMemory t u ∧ ∃ d, u.memory.refs = t.memory.refs.put .source (t.memory.current .source) d) := by
  have hstay : ∃ d, t.memory.refs = t.memory.refs.put .source (t.memory.current .source) d :=
    ⟨_, (Refs.put_self t.memory .source).symm⟩
  unfold mergeMemory
  refine Ends.bind (D := fun _ u => OnlyMemory t u ∧ ∃ ledger, commits.ledger = some ledger ∧
    u.memory.refs = t.memory.refs.put .source (t.memory.current .source) ledger ∧
    (u.memory.checkout .source).files = ledger.tree) (ends_requireGit ?_ ?_ ⟨⟨rfl, rfl⟩, hstay⟩) ?_
  · intro hok
    simp only [onMemory] at hok ⊢
    cases hl : commits.ledger with
    | none => simp [hl, orStay] at hok
    | some ledger =>
      simp only [hl, Option.bind_some] at hok ⊢
      cases hm : t.memory.mergeFastForward .source E.memoryTool ledger with
      | none => simp [hm, orStay] at hok
      | some s =>
        obtain ⟨hhead, hfiles⟩ := mergeFastForward_arrives hm (hanc ledger hl)
        exact ⟨⟨rfl, rfl⟩, ledger, rfl, hhead ▸ refs_mergeFastForward hm, hfiles hclean⟩
  · intro hok
    simp only [onMemory] at hok ⊢
    cases hm : commits.ledger.bind fun ledger => t.memory.mergeFastForward .source E.memoryTool ledger with
    | none => exact ⟨⟨rfl, rfl⟩, hstay⟩
    | some s => simp [hm, orStay] at hok
  · rintro - u ⟨honly, ledger, hl, hrefs, hfiles⟩
    have hbranch : u.memory.branches x.sourceBranch = some ledger := branch_of_put (hcur ▸ hrefs)
    refine Ends.next (ends_loadLedger .source) (fun v hv => hv ▸ ⟨honly, ledger, hrefs⟩) ?_
    rintro l v ⟨rfl, text, hmd, hparse⟩
    refine ends_require (fun hmaps => ⟨honly, ledger, hl, hbranch, text, l, hfiles ▸ hmd, hparse, hmaps⟩) fun _ => ?_
    exact ⟨honly, ledger, hrefs⟩

theorem ends_merge (hcode : t.code.current .source = some c.codeSourceBranch)
    (hmemory : ∀ x, c.external = some x → t.memory.current .source = some x.sourceBranch ∧ t.memory.isClean .source = true) :
    Ends (mergeIntegratedCommits E c commits) t (fun _ u => u.sourceMerged = t.sourceMerged ∧ Landed E c commits u)
      (fun u => u.sourceMerged = t.sourceMerged ∧ ((∀ name, Works E true name) → RefsKept t u)) := by
  have hstay : t.sourceMerged = t.sourceMerged ∧ ((∀ name, Works E true name) → RefsKept t t) := ⟨rfl, fun _ => ⟨rfl, rfl⟩⟩
  -- the code's half, once it is known to be ahead
  have hmerge : Ancestor (t.code.head .source) commits.code →
      Ends (requireGit E false .mergeFastForward
        (onCode fun r => orStay r (r.mergeFastForward .source E.codeTool commits.code))) t
        (fun _ u => OnlyCode t u ∧ u.code.refs = t.code.refs.put .source (t.code.current .source) commits.code)
        (fun u => u.sourceMerged = t.sourceMerged ∧ ((∀ name, Works E true name) → RefsKept t u)) := by
    intro hanc
    refine ends_requireGit (fun hok => ?_) (fun hok => ?_) hstay
    · simp only [onCode] at hok ⊢
      cases hm : t.code.mergeFastForward .source E.codeTool commits.code with
      | none => simp [hm, orStay] at hok
      | some s =>
        obtain ⟨hhead, -⟩ := mergeFastForward_arrives hm hanc
        exact ⟨⟨rfl, rfl⟩, hhead ▸ refs_mergeFastForward hm⟩
    simp only [onCode] at hok ⊢
    cases hm : t.code.mergeFastForward .source E.codeTool commits.code with
    | none => exact ⟨trivial, fun _ => ⟨rfl, rfl⟩⟩
    | some s => simp [hm, orStay] at hok
  have hlanded : ∀ u : IntegrateWorld C M, u.code.refs = t.code.refs.put .source (t.code.current .source) commits.code →
      u.code.branches c.codeSourceBranch = some commits.code := fun u hu => branch_of_put (hcode ▸ hu)
  unfold mergeIntegratedCommits
  refine Ends.seq (ends_requireRead (fun a ha => ?_) fun _ => hstay)
  cases ha
  refine Ends.seq (ends_probe (fun b hyes _ => Ends.seq (ends_require (fun hb => ?_) fun _ => hstay)) fun _ => hstay)
  have hahead := isAncestor_iff.mp (hyes hb)
  cases hx : c.external with
  | none =>
    refine (hmerge hahead).mono (fun _ y hy => ?_) fun _ hy => hy
    exact ⟨hy.1.2, hlanded y hy.2, fun x h => nomatch h.symm.trans hx⟩
  | some x =>
    obtain ⟨hcur, hclean⟩ := hmemory x hx
    refine Ends.seq (ends_requireRead (fun a ha => ?_) fun _ => hstay)
    cases ha
    refine Ends.seq (ends_probe (fun b hyes' _ => Ends.seq (ends_require (fun hb' => ?_) fun _ => hstay)) fun _ => hstay)
    refine Ends.bind (hmerge hahead) ?_
    rintro - y ⟨⟨hym, hyf⟩, hyc⟩
    refine ends_rescue ((ends_mergeMemory (x := x) (hym ▸ hcur) (hym ▸ hclean) fun ledger hl => ?_).mono ?_ ?_)
    · have hany := hyes' hb'
      rw [hl, Option.any_some] at hany
      exact hym ▸ isAncestor_iff.mp hany
    · rintro - a ⟨⟨hac, haf⟩, hmem⟩
      refine ⟨haf.trans hyf, hlanded a (hac ▸ hyc), fun x' hx' => ?_⟩
      cases hx'.symm.trans hx
      exact hmem
    rintro a ⟨⟨hac, haf⟩, d, had⟩ e
    have hmerged : a.sourceMerged = t.sourceMerged := haf.trans hyf
    have hcodeBack : (a.code.resetHard .source (t.code.head .source)).refs = t.code.refs :=
      refs_reset_moved (c := commits.code) (hac ▸ hyc)
    have hmemoryBack : (a.memory.resetHard .source (t.memory.head .source)).refs = t.memory.refs :=
      refs_reset_moved (c := d) (hym ▸ had)
    refine Ends.bind (D := fun _ b => b.sourceMerged = t.sourceMerged ∧ b.memory = a.memory ∧
        ((∀ name, Works E true name) → b.code.refs = t.code.refs))
      (ends_runGit ⟨hmerged, rfl, fun _ => hcodeBack⟩ (fun hx => ⟨hmerged, rfl, fun hw => absurd (hw _) hx⟩)
        fun hx => ⟨hmerged, fun hw => absurd (hw _) hx⟩) ?_
    rintro - b ⟨hbf, hbm, hbc⟩
    refine Ends.bind (D := fun _ b => b.sourceMerged = t.sourceMerged ∧ ((∀ name, Works E true name) → RefsKept t b))
      (ends_runGit ⟨hbf, fun hw => ⟨hbc hw, ?_⟩⟩ (fun hx => ⟨hbf, fun hw => absurd (hw _) hx⟩)
        fun hx => ⟨hbf, fun hw => absurd (hw _) hx⟩) ?_
    · simp only [onMemory, hbm]
      exact hmemoryBack
    · rintro - b' hb'
      exact ends_raise hb'

/-! ## The whole call -/

/-- The commands that undo, and the probes that decide what is to be undone, work. -/
structure UndoWorks (E : IntegrateEnv C M) : Prop where
  undo : ∀ name, Works E true name
  isAncestor : Works E false .isAncestor
  branchExists : Works E false .branchExists

def Restorable (c : IntegrateContract C M) (args : IntegrateArgs C M) (sources : IntegrationSources C M)
    (w t : IntegrateWorld C M) : Prop :=
  CodeLeft c args sources w t ∧
    (t.memory.refs = w.memory.refs ∨ ∃ x, c.external = some x ∧ MemoryLeft x args sources w t)

def NotedCode (args : IntegrateArgs C M) (sources : IntegrationSources C M) (w : IntegrateWorld C M)
    (head : Option (Commit C)) : Prop :=
  (args.strategy = "replay" ∧ sources.codeReplayRequired = true → head = some (w.code.head .task)) ∧
    ∀ d, head = some d → d = w.code.head .task

def NotedMemory (c : IntegrateContract C M) (args : IntegrateArgs C M) (sources : IntegrationSources C M)
    (w : IntegrateWorld C M) (state : Option (MemoryReplayState M)) : Prop :=
  (∀ x, c.external = some x → MemoryFlag args sources → state = some ⟨some x.workBranch, w.memory.head .task,
    integrationBranch x, (w.memory.branches (integrationBranch x)).isSome⟩) ∧
  ∀ st, state = some st → ∃ x, c.external = some x ∧ st = ⟨some x.workBranch, w.memory.head .task,
    integrationBranch x, (w.memory.branches (integrationBranch x)).isSome⟩

theorem ends_restore {head : Option (Commit C)} {state : Option (MemoryReplayState M)} (hu : UndoWorks E) (hr : Ready c w)
    (hn : NotedCode args sources w head) (hn' : NotedMemory c args sources w state) (h : Restorable c args sources w t) (hmerged : t.sourceMerged = false) :
    Ends (restore E head state) t (fun _ u => RefsKept w u) Never := by
  obtain ⟨hhead, hhead'⟩ := hn
  obtain ⟨hstate, hstate'⟩ := hn'
  unfold restore
  refine Ends.seq (ends_read ?_)
  rw [hmerged, whenever_true (by rfl)]
  refine Ends.bind (D := fun _ v => v.code.refs = w.code.refs ∧ v.memory = t.memory) ?_ ?_
  · cases head with
    | none =>
      refine ends_pure ⟨?_, rfl⟩
      rcases h.1 with h | ⟨hflag, -⟩
      · exact h
      · exact nomatch hhead hflag
    | some d =>
      obtain rfl := hhead' d rfl
      refine ends_restoreCode hu.undo hr.task ?_
      rcases h.1 with h | ⟨-, h⟩
      · exact .inl h
      · exact .inr h
  · rintro - v ⟨hvc, hvm⟩
    have hleft : v.memory.refs = w.memory.refs ∨ ∃ x, c.external = some x ∧ MemoryLeft x args sources w v := by
      rcases h.2 with h | ⟨x, hx, h⟩
      · exact .inl (hvm ▸ h)
      · exact .inr ⟨x, hx, memoryLeft_congr hvm h⟩
    cases state with
    | none =>
      refine ends_pure ⟨hvc, ?_⟩
      rcases hleft with h | ⟨x, hx, h | ⟨hflag, -⟩⟩
      · exact h
      · exact h
      · exact nomatch hstate x hx hflag
    | some st =>
      obtain ⟨x, hx, rfl⟩ := hstate' st rfl
      refine (ends_restoreMemory hu.undo (hr.memory x hx).task ?_).mono (fun _ y hy => ⟨hy.1 ▸ hvc, hy.2⟩) fun _ hy => hy
      rcases hleft with h | ⟨x', hx', h | ⟨-, h⟩⟩
      · exact .inl h
      · exact .inl h
      · cases hx'.symm.trans hx
        exact .inr h

theorem ends_replayHead (ht : repos t = repos w) : Ends (replayHead E args sources) t
    (fun head u => repos u = repos w ∧ NotedCode args sources w head) (fun u => repos u = repos w) := by
  unfold replayHead
  by_cases hflag : args.strategy = "replay" ∧ sources.codeReplayRequired = true
  · rw [if_pos hflag]
    refine ends_map (ends_requireRead (fun a ha => ⟨ht, fun _ => ?_, fun d hd => ?_⟩) fun _ => ht)
    · rw [← (repos_eq ht).1]
      exact ha.symm
    cases hd
    rw [← (repos_eq ht).1]
    exact (Option.some.inj ha).symm
  · rw [if_neg hflag]
    exact ends_pure ⟨ht, fun h => absurd h hflag, fun d hd => nomatch hd⟩

theorem ends_memoryReplayState (hr : Ready c w) (ht : repos t = repos w) : Ends (memoryReplayState E c args sources) t
    (fun state u => repos u = repos w ∧ (UndoWorks E → NotedMemory c args sources w state)) (fun u => repos u = repos w) := by
  have hmem : t.memory = w.memory := (repos_eq ht).2.1
  unfold memoryReplayState
  cases hx : c.external with
  | none => exact ends_pure ⟨ht, fun _ => ⟨fun x h => (nomatch h.symm.trans hx), fun st h => nomatch h⟩⟩
  | some x =>
    by_cases hflag : args.strategy = "replay" ∧ sources.replayRequired = true
    · simp only [if_pos hflag]
      have hcur := (hr.memory x hx).task
      rw [← hmem] at hcur
      refine Ends.seq (ends_requireRead (fun a ha => ?_) fun _ => ht)
      cases ha
      refine Ends.seq (ends_requireRead (fun a ha => ?_) fun _ => ht)
      cases ha
      refine Ends.seq (ends_probe (fun b _ hval => ?_) fun _ => ht)
      refine ends_pure ⟨ht, fun hu => ⟨fun x' hx' _ => ?_, fun st hst => ⟨x, hx, ?_⟩⟩⟩
      · cases hx'.symm.trans hx
        rw [hcur, hval hu.branchExists, hmem]
      · cases hst
        rw [hcur, hval hu.branchExists, hmem]
    · simp only [if_neg hflag]
      exact ends_pure ⟨ht, fun _ => ⟨fun _ _ h => absurd h hflag, fun st h => nomatch h⟩⟩

/-! ## Landing -/

def sourceSides (w : IntegrateWorld C M) : Checkout C × Checkout M × Bool :=
  (w.code.checkout .source, w.memory.checkout .source, w.sourceMerged)

theorem keeps_sides (h : Keeps repos m) : Keeps sourceSides m :=
  h.comp (k := fun r : Repo Place C × Repo Place M × Bool => (r.1.checkout .source, r.2.1.checkout .source, r.2.2))

theorem keeps_integratedCode : Keeps sourceSides (integratedCodeCommit E c args sources) := by
  have hreplay : Keeps sourceSides (replayCodeIfNeeded E c sources) := by
    unfold replayCodeIfNeeded
    refine .bind keeps_probe fun b => keeps_ite keeps_pure ?_
    refine .bind (keeps_runGit fun w => ?_) fun ok => keeps_ite (.map keeps_requireRead) (.map (keeps_sides (keeps_blocked _ _)))
    simp only [onCode, sourceSides]
    split
    · rfl
    · rw [rebase_checkout_ne _ _ _ _ (by decide)]
  unfold integratedCodeCommit
  refine .bind ?_ fun r => ?_
  · unfold replayedCode
    split
    · exact hreplay
    · exact keeps_pure
  cases r with
  | error stop => exact keeps_pure
  | ok code => exact .bind keeps_probe fun _ => .bind keeps_require fun _ => keeps_pure

theorem keeps_integratedMemory : Keeps sourceSides (integratedMemoryCommits E c args sources code) := by
  have hne : Place.source ≠ Place.task := by decide
  have hledger : Keeps sourceSides (replayLedger E code) := by
    unfold replayLedger
    refine .bind keeps_requireRead fun content => .bind (keeps_sides (keeps_loadLedger _)) fun ledger => .bind ?_ fun _ => ?_
    · unfold writeLedger
      split
      · exact keeps_raise
      refine keeps_change fun w => ?_
      simp only [sourceSides]
      rw [checkout_setFiles_ne _ _ hne]
    refine .bind (keeps_requireGit fun _ => rfl) fun _ => .bind ?_ fun _ => keeps_pure
    unfold commitIfDirty
    refine .bind keeps_requireRead fun dirty => keeps_ite ?_ keeps_requireRead
    refine .bind (keeps_requireGit fun _ => rfl) fun _ => .bind (keeps_requireGit fun w => ?_) fun _ => keeps_requireRead
    simp only [onMemory, sourceSides]
    rw [checkout_commit_ne _ hne]
  have hreplay : ∀ x, Keeps sourceSides (replayMemoryContent E c x code) := by
    intro x
    have herror : ∀ status, Keeps sourceSides (.error <$> blocked status true :
        Integration C M (Except String (Option (Commit M) × Option (Commit M)))) :=
      fun status => .map (keeps_sides (keeps_blocked _ _))
    unfold replayMemoryContent
    refine .bind keeps_probe fun b => keeps_ite (herror _) ?_
    refine .bind (keeps_runGit fun w => ?_) fun ok => keeps_ite (herror _) ?_
    · simp only [onMemory, sourceSides, orStay_snd]
      cases hnew : c.memoryContentCommit.bind fun content =>
          w.memory.checkoutNew .task E.memoryTool (integrationBranch x) content with
      | none => rfl
      | some s =>
        obtain ⟨content, -, hs⟩ := Option.bind_eq_some_iff.mp hnew
        rw [Option.getD_some, (checkoutNew_some hs).2.2 _ hne]
    refine .bind (keeps_runGit fun w => ?_) fun ok => keeps_ite (herror _) (.map hledger)
    simp only [onMemory, sourceSides]
    split
    · rw [rebase_checkout_ne _ _ _ _ hne]
    · rfl
  unfold integratedMemoryCommits
  split
  · refine .bind ?_ fun r => ?_
    · unfold replayedMemory
      refine .bind ?_ fun b => keeps_ite (hreplay _) keeps_pure
      unfold memoryNeedsNewLedger
      split
      · split
        · exact keeps_pure
        · exact .map keeps_probe
      · exact keeps_pure
    cases r with
    | error stop => exact keeps_pure
    | ok memory => exact .bind keeps_probe fun _ => .bind keeps_require fun _ => keeps_pure
  · exact keeps_pure

def LandPost (E : IntegrateEnv C M) (c : IntegrateContract C M) (args : IntegrateArgs C M) (sources : IntegrationSources C M)
    (w : IntegrateWorld C M) (r : IntegrateResult) (u : IntegrateWorld C M) : Prop :=
  (u.sourceMerged = true ∧ r = .integrated false ∧
    ∃ commits, u.contract.integrated = some commits ∧ u.contract.integrationStatus = .completed ∧ Landed E c commits u) ∨
  u.sourceMerged = false ∧ (∃ status, r = .blocked status) ∧ (UndoWorks E → Restorable c args sources w u)

/-- The sources' checkouts are untouched, and what is left can be restored. -/
def Safe (E : IntegrateEnv C M) (c : IntegrateContract C M) (args : IntegrateArgs C M) (sources : IntegrationSources C M)
    (w u : IntegrateWorld C M) : Prop :=
  sourceSides u = (w.code.checkout .source, w.memory.checkout .source, false) ∧ (UndoWorks E → Restorable c args sources w u)

theorem Safe.post (h : Safe E c args sources w u) :
    u.sourceMerged = false ∧ (UndoWorks E → Restorable c args sources w u) :=
  ⟨congrArg (fun s : Checkout C × Checkout M × Bool => s.2.2) h.1, h.2⟩

theorem safe_of_repos (hv : repos v = repos u) (h : Safe E c args sources w u) : Safe E c args sources w v := by
  obtain ⟨hc, hm, hf⟩ := repos_eq hv
  refine ⟨?_, fun hu => ⟨codeLeft_congr hc (h.2 hu).1, ?_⟩⟩
  · rw [← h.1]
    simp only [sourceSides, hc, hm, hf]
  rcases (h.2 hu).2 with h | ⟨x, hx, h⟩
  · exact .inl (hm ▸ h)
  · exact .inr ⟨x, hx, memoryLeft_congr hm h⟩

theorem ends_safe (hm : Keeps repos m) (h : Safe E c args sources w u) :
    Ends m u (fun _ v => repos v = repos u ∧ Safe E c args sources w v) (Safe E c args sources w) :=
  (hm u).mono (fun _ _ hv => ⟨hv, safe_of_repos hv h⟩) fun _ hv => safe_of_repos hv h

theorem landPost_blocked {status : String} (h : Safe E c args sources w u) :
    LandPost E c args sources w (.blocked status) u := .inr ⟨h.post.1, ⟨status, rfl⟩, h.post.2⟩

theorem ends_landMerge {u : IntegrateWorld C M} (hr : Ready c w) (h : Safe E c args sources w u)
    (hc : UndoWorks E → CodeAlong c args sources w u)
    (hm : UndoWorks E → u.memory.refs = w.memory.refs ∨ ∃ x, c.external = some x ∧ MemoryAlong x args sources w u)
    (commits : IntegratedCommits C M) :
    Ends (do
      change fun w => { w with journal := some commits }
      mergeIntegratedCommits E c commits
      change fun w => { w with sourceMerged := true }
      integratedResult c args commits false) u (LandPost E c args sources w)
      (fun v => v.sourceMerged = false ∧ (UndoWorks E → Restorable c args sources w v)) := by
  have hcode : u.code.checkout .source = w.code.checkout .source :=
    congrArg (fun s : Checkout C × Checkout M × Bool => s.1) h.1
  have hmemory : u.memory.checkout .source = w.memory.checkout .source :=
    congrArg (fun s : Checkout C × Checkout M × Bool => s.2.1) h.1
  refine Ends.seq (ends_change ?_)
  refine Ends.next (ends_merge (c := c) (E := E) ?_ ?_) ?_ ?_
  · simp only [Repo.current, hcode]
    exact hr.source
  · intro x hx
    simp only [Repo.current, Repo.isClean, hmemory]
    exact ⟨(hr.memory x hx).source, (hr.memory x hx).clean⟩
  · rintro v ⟨hvf, hvk⟩
    refine ⟨hvf.trans h.post.1, fun hu => ?_⟩
    obtain ⟨hvc, hvm⟩ := hvk hu.undo
    refine ⟨CodeAlong.left hr.task ?_, ?_⟩
    · rcases hc hu with h | ⟨hflag, d, h⟩
      · exact .inl (hvc.trans h)
      · exact .inr ⟨hflag, d, hvc.trans h⟩
    rcases hm hu with h | ⟨x, hx, h | ⟨hflag, hnone, d, h⟩⟩
    · exact .inl (hvm.trans h)
    · exact .inl (hvm.trans h)
    · exact .inr ⟨x, hx, MemoryAlong.left (.inr ⟨hflag, hnone, d, hvm.trans h⟩)⟩
  · rintro - v ⟨hvf, hlanded⟩
    unfold integratedResult
    exact Ends.seq (ends_change (Ends.seq (ends_change (ends_pure (.inl ⟨rfl, rfl, commits, rfl, rfl, hlanded⟩)))))

theorem ends_landMemory {y : IntegrateWorld C M} (hs : UndoWorks E → Sourced c sources w)
    (hy : Safe E c args sources w y) (hrepos : repos y = repos u)
    (hcode : UndoWorks E → CodePost c args sources w t (.ok code) u) (ht : t.memory = w.memory) :
    Ends (integratedMemoryCommits E c args sources code) y
      (fun r z => Safe E c args sources w z ∧ ∀ memory, r = .ok memory → UndoWorks E → CodeAlong c args sources w z ∧
        (z.memory.refs = w.memory.refs ∨ ∃ x, c.external = some x ∧ MemoryAlong x args sources w z))
      (Safe E c args sources w) := by
  obtain ⟨huc, hum, -⟩ := repos_eq hrepos
  have halong : UndoWorks E → CodeAlong c args sources w y := by
    intro hw
    rcases ((hcode hw).2 code rfl).1 with h | ⟨hflag, d, h⟩
    · exact .inl (huc ▸ h)
    · exact .inr ⟨hflag, d, huc ▸ h⟩
  have hmem : UndoWorks E → y.memory = w.memory := fun hw => hum.trans ((hcode hw).1.1.1.trans ht)
  cases hx : c.external with
  | none =>
    unfold integratedMemoryCommits
    simp only [hx]
    exact ends_pure ⟨hy, fun _ _ hw => ⟨halong hw, .inl (hmem hw ▸ rfl)⟩⟩
  | some x =>
    have hsafe : ∀ z, sourceSides z = sourceSides y → (UndoWorks E → OnlyMemory y z ∧ MemoryLeft x args sources w z) →
        Safe E c args sources w z := by
      intro z hz hpost
      refine ⟨hz.trans hy.1, fun hw => ⟨codeLeft_congr (hpost hw).1.1 (hy.2 hw).1, .inr ⟨x, hx, (hpost hw).2⟩⟩⟩
    refine (keeps_integratedMemory y |>.and (Ends.given fun hw : UndoWorks E => ends_integratedMemory hw.isAncestor
      hw.branchExists (hs hw) hx (hmem hw) ((hcode hw).2 code rfl).2)).mono ?_ fun z hz => hsafe z hz.1 hz.2
    rintro r z ⟨hz, hpost⟩
    refine ⟨hsafe z hz fun hw => (hpost hw).1, fun memory hr hw => ⟨?_, .inr ⟨x, rfl, (hpost hw).2 memory hr⟩⟩⟩
    rcases halong hw with h | ⟨hflag, d, h⟩
    · exact .inl ((hpost hw).1.1.1 ▸ h)
    · exact .inr ⟨hflag, d, (hpost hw).1.1.1 ▸ h⟩

theorem ends_land (hr : Ready c w) (hs : UndoWorks E → Sourced c sources w) (ht : repos t = (w.code, w.memory, false)) :
    Ends (land E c args sources) t (LandPost E c args sources w)
      (fun u => u.sourceMerged = false ∧ (UndoWorks E → Restorable c args sources w u)) := by
  obtain ⟨htc, htm, htf⟩ : t.code = w.code ∧ t.memory = w.memory ∧ t.sourceMerged = false := by simpa [repos] using ht
  have hsides : ∀ {u : IntegrateWorld C M}, sourceSides u = sourceSides t →
      sourceSides u = (w.code.checkout .source, w.memory.checkout .source, false) := by
    intro u hu
    rw [hu]
    simp only [sourceSides, htc, htm, htf]
  unfold land
  refine Ends.next (keeps_integratedCode t |>.and (Ends.given fun hu : UndoWorks E =>
    ends_integratedCode hu.isAncestor hr (hs hu) htc)) ?_ ?_
  · rintro u ⟨hu, hpost⟩
    refine Safe.post ⟨hsides hu, fun hw => ⟨(hpost hw).2, .inl ?_⟩⟩
    rw [(hpost hw).1.1, htm]
  rintro r u ⟨hu, hpost⟩
  have hsafe : Safe E c args sources w u := by
    refine ⟨hsides hu, fun hw => ⟨(hpost hw).1.2, .inl ?_⟩⟩
    rw [(hpost hw).1.1.1, htm]
  cases r with
  | error stop => exact ends_pure (landPost_blocked hsafe)
  | ok code =>
    cases code with
    | none => exact ends_raise hsafe.post
    | some code =>
      refine Ends.next (ends_safe keeps_qualityGate hsafe) (fun _ h => h.post) ?_
      rintro passed v ⟨hv, hvs⟩
      cases passed with
      | false => exact ends_map ((ends_safe (keeps_blocked _ _) hvs).mono (fun _ _ h => landPost_blocked h.2) fun _ h => h.post)
      | true =>
        refine Ends.next (ends_safe keeps_sourceStateBlock hvs) (fun _ h => h.post) ?_
        rintro stop y ⟨hy, hys⟩
        cases stop with
        | some stop => exact ends_pure (landPost_blocked hys)
        | none =>
          have hrepos : repos y = repos u := hy.trans hv
          refine Ends.next (ends_landMemory hs hys hrepos hpost htm) (fun _ h => h.post) ?_
          rintro r a ⟨has, halong⟩
          cases r with
          | error stop => exact ends_pure (landPost_blocked has)
          | ok memory =>
            refine Ends.next (ends_safe keeps_sourceStateBlock has) (fun _ h => h.post) ?_
            rintro stop b ⟨hb, hbs⟩
            obtain ⟨hbc, hbm, -⟩ := repos_eq hb
            cases stop with
            | some stop => exact ends_pure (landPost_blocked hbs)
            | none =>
              refine ends_landMerge hr hbs (fun hw => ?_) (fun hw => ?_) _
              · rcases (halong memory rfl hw).1 with h | ⟨hflag, d, h⟩
                · exact .inl (hbc ▸ h)
                · exact .inr ⟨hflag, d, hbc ▸ h⟩
              rcases (halong memory rfl hw).2 with h | ⟨x, hx, h | ⟨hflag, hnone, d, h⟩⟩
              · exact .inl (hbm ▸ h)
              · exact .inl (hbm ▸ h)
              · exact .inr ⟨x, hx, .inr ⟨hflag, hnone, d, hbm ▸ h⟩⟩

/-- How `_apply_integration` ends: integrated with both sides landed, or blocked and, if what undoes works, as it began. -/
def Settled (E : IntegrateEnv C M) (c : IntegrateContract C M) (w : IntegrateWorld C M) (r : IntegrateResult)
    (t : IntegrateWorld C M) : Prop :=
  (r = .integrated false ∧ ∃ commits, t.contract.integrated = some commits ∧ t.contract.integrationStatus = .completed ∧
    Landed E c commits t) ∨ (∃ status, r = .blocked status) ∧ (UndoWorks E → RefsKept w t)

theorem ends_unlessMerged {cleanUp : Integration C M Unit} {D : Unit → IntegrateWorld C M → Prop}
    {R : IntegrateWorld C M → Prop} (h : t.sourceMerged = true) (hd : D () t) :
    Ends (do
      let merged ← read IntegrateWorld.sourceMerged
      whenever (!merged) cleanUp) t D R := by
  refine Ends.seq (ends_read ?_)
  rw [h]
  exact ends_pure hd

theorem ends_apply (hr : Ready c w) (hs : UndoWorks E → Sourced c sources w) (ht : repos t = repos w) :
    Ends (applyIntegration E c args sources) t (Settled E c w) (fun u => UndoWorks E → RefsKept w u) := by
  have hkept : ∀ u, repos u = repos w → UndoWorks E → RefsKept w u := fun u hu _ => refsKept_of_repos hu
  unfold applyIntegration
  refine Ends.next (ends_replayHead ht) hkept ?_
  rintro head u ⟨hu, hhead⟩
  refine Ends.next (ends_memoryReplayState hr hu) hkept ?_
  rintro state v ⟨hv, hstate⟩
  refine Ends.bind (D := fun _ y => repos y = (w.code, w.memory, false)) (ends_change ?_) ?_
  · obtain ⟨hc, hm, -⟩ := repos_eq hv
    simp only [repos, hc, hm]
  rintro - y hy
  have hrestore : ∀ z : IntegrateWorld C M, z.sourceMerged = false → (UndoWorks E → Restorable c args sources w z) →
      Ends (restore E head state) z (fun _ a => UndoWorks E → RefsKept w a) (fun a => UndoWorks E → RefsKept w a) := by
    intro z hmerged hrest
    refine (Ends.given fun hw : UndoWorks E => ends_restore hw hr hhead (hstate hw) (hrest hw) hmerged).mono
      (fun _ _ h => h) fun a h hw => (h hw).elim
  refine ends_ensure ((ends_land hr hs hy).mono ?_ ?_)
  · rintro r z (⟨hmerged, rfl, hlanded⟩ | ⟨hmerged, hblocked, hrest⟩)
    · exact ends_unlessMerged hmerged (.inl ⟨rfl, hlanded⟩)
    · exact (hrestore z hmerged hrest).mono (fun _ a h => .inr ⟨hblocked, h⟩) fun _ h => h
  · rintro z ⟨hmerged, hrest⟩
    exact hrestore z hmerged hrest

/-! ## The whole call, from its refusals to its landing -/

theorem sourced_of_repos (h : repos t = repos w) (hs : Sourced c sources t) : Sourced c sources w :=
  ⟨(repos_eq h).1 ▸ hs.code, hs.codeReplay, hs.memory⟩

theorem ends_replayRequirements (w : IntegrateWorld C M) : Ends (integrationReplayRequirements E c) w
    (fun sources t => repos t = repos w ∧ (UndoWorks E → Sourced c sources w)) (fun t => repos t = repos w) := by
  unfold integrationReplayRequirements
  refine Ends.seq (ends_requireRead (fun code hcode => ?_) fun _ => rfl)
  refine Ends.seq (ends_probe (fun codeIn _ hcodeIn => ?_) fun _ => rfl)
  cases hx : c.external with
  | none => exact ends_pure ⟨rfl, fun hw => ⟨hcode, by rw [hcodeIn hw.isAncestor], fun x h => (nomatch h.symm.trans hx)⟩⟩
  | some x =>
    refine Ends.seq (ends_requireRead (fun memory _ => ?_) fun _ => rfl)
    refine Ends.seq (ends_probe (fun memoryIn _ hmemoryIn => ?_) fun _ => rfl)
    refine ends_pure ⟨rfl, fun hw => ⟨hcode, ?_, fun _ _ => ⟨memory, rfl, ?_⟩⟩⟩
    · rw [hcodeIn hw.isAncestor]
    · rw [hmemoryIn hw.isAncestor]

def SourcesLanded (c : IntegrateContract C M) (commits : IntegratedCommits C M) (w : IntegrateWorld C M) : Prop :=
  w.code.branches c.codeSourceBranch = some commits.code ∧
    ∀ x, c.external = some x → ∃ ledger, commits.ledger = some ledger ∧ w.memory.branches x.sourceBranch = some ledger

theorem ends_recoverySourcesLanded (commits : IntegratedCommits C M) : Ends (recoverySourcesLanded E c commits) w
    (fun landed t => t = w ∧ (landed = true → SourcesLanded c commits w) ∧
      (landed = false → w.code.branches c.codeSourceBranch ≠ some commits.code ∧
        ∀ x, c.external = some x → w.memory.branches x.sourceBranch ≠ commits.ledger)) (fun t => t = w) := by
  unfold recoverySourcesLanded
  refine Ends.seq (ends_requireRead (fun code hcode => ?_) fun _ => rfl)
  cases hx : c.external with
  | none =>
    by_cases hlanded : code = commits.code
    · simp only [hlanded, decide_true, Bool.not_true, Bool.false_eq_true, if_false]
      refine Ends.seq (ends_require (fun _ => ?_) fun _ => rfl)
      exact ends_pure ⟨rfl, fun _ => ⟨hlanded ▸ hcode, fun x h => (nomatch h.symm.trans hx)⟩, fun h => nomatch h⟩
    simp only [hlanded, decide_false, Bool.not_false, if_true]
    refine ends_pure ⟨rfl, fun h => (nomatch h), fun _ => ⟨fun h => hlanded ?_, fun x h => nomatch h⟩⟩
    exact Option.some.inj (hcode.symm.trans h)
  | some x =>
    refine Ends.seq (ends_requireRead (fun memory hmemory => ?_) fun _ => rfl)
    have hno : code ≠ commits.code → w.code.branches c.codeSourceBranch ≠ some commits.code :=
      fun hne h => hne (Option.some.inj (hcode.symm.trans h))
    by_cases hc : code = commits.code <;> by_cases hm : some memory = commits.ledger
    · simp only [hc, hm, decide_true, Bool.not_true, Bool.and_self, Bool.false_eq_true, if_false]
      refine Ends.seq (ends_require (fun _ => ?_) fun _ => rfl)
      refine ends_pure ⟨rfl, fun _ => ⟨hc ▸ hcode, fun x' hx' => ?_⟩, fun h => nomatch h⟩
      cases hx'.symm.trans hx
      exact ⟨memory, hm.symm, hmemory⟩
    · simp only [hc, hm, decide_true, decide_false, Bool.not_true, Bool.not_false, Bool.and_true,
        Bool.false_eq_true, if_false]
      exact Ends.seq (ends_require (fun h => nomatch h) fun _ => rfl)
    · simp only [hc, hm, decide_true, decide_false, Bool.not_true, Bool.not_false, Bool.and_true, Bool.true_and,
        Bool.false_eq_true, if_false]
      exact Ends.seq (ends_require (fun h => nomatch h) fun _ => rfl)
    · simp only [hc, hm, decide_false, Bool.not_false, Bool.and_self, if_true]
      refine ends_pure ⟨rfl, fun h => (nomatch h), fun _ => ⟨hno hc, fun x' hx' => ?_⟩⟩
      cases hx'
      rw [hmemory]
      exact hm

theorem keeps_proveExternal (commits : IntegratedCommits C M) : Keeps id (proveExternalMemoryRecovery E commits) := by
  unfold proveExternalMemoryRecovery
  refine .bind keeps_requireRead fun _ => .bind keeps_require fun _ => .bind keeps_requireRead fun _ => ?_
  refine .bind keeps_require fun _ => .bind keeps_requireRead fun _ => .bind keeps_require fun _ => ?_
  refine .bind (keeps_loadLedger _) fun _ => .bind keeps_require fun _ => ?_
  exact .bind keeps_probe fun _ => keeps_require

theorem ends_recover : Ends (recoverIntegrationFinalization E c args) w
    (fun r t => (r = none → t = w) ∧ repos t = repos w ∧ ∀ result, r = some result →
      (result = .integrated true ∨ result = .alreadyIntegrated true) ∧
        ∃ commits, args.recoveryCommits = some commits ∧ SourcesLanded c commits w) (fun t => repos t = repos w) := by
  unfold recoverIntegrationFinalization
  cases hcommits : args.recoveryCommits with
  | none => exact ends_pure ⟨fun _ => rfl, rfl, fun result h => nomatch h⟩
  | some commits =>
    refine Ends.bind (D := fun r t => t = w ∧ (r.isSome = true → SourcesLanded c commits w)) ?_ ?_
    · unfold proveIntegrationRecoveryCommits
      refine Ends.next (ends_recoverySourcesLanded commits) (fun t h => h ▸ rfl) ?_
      rintro landed t ⟨rfl, hlanded, -⟩
      cases landed with
      | false => exact ends_pure ⟨rfl, fun h => nomatch h⟩
      | true =>
        refine ends_check (fun _ _ _ => ends_check (fun _ _ _ => ends_check (fun _ _ _ => ?_) rfl) rfl) rfl
        refine Ends.next (keeps_whenever (keeps_proveExternal commits) t) (fun _ h => congrArg repos h) ?_
        rintro - u rfl
        exact ends_pure ⟨rfl, fun _ => hlanded rfl⟩
    rintro r t ⟨rfl, hlanded⟩
    cases r with
    | none => exact ends_pure ⟨fun _ => rfl, rfl, fun result h => nomatch h⟩
    | some proven =>
      simp only
      split
      · refine Ends.seq (ends_require (fun _ => ?_) fun _ => rfl)
        exact ends_pure ⟨fun h => (nomatch h), rfl, fun result h => ⟨.inr (Option.some.inj h).symm, commits, rfl, hlanded rfl⟩⟩
      refine ends_map ?_
      unfold integratedResult
      refine Ends.seq (ends_change ?_)
      exact ends_pure ⟨fun h => (nomatch h), rfl, fun result h => ⟨.inl (Option.some.inj h).symm, commits, rfl, hlanded rfl⟩⟩

/-- How a call that returns ends: with both sources at the commits and the landed ledger mapping them, or with every branch
and every checkout where it was; and a recovered pair is one of which both sides landed. -/
structure CallPost (E : IntegrateEnv C M) (args : IntegrateArgs C M) (w : IntegrateWorld C M) (r : IntegrateResult)
    (t : IntegrateWorld C M) : Prop where
  landed : r = .integrated false → ∃ commits, t.contract.integrated = some commits ∧
    t.contract.integrationStatus = .completed ∧ Landed E w.contract commits t
  kept : r ≠ .integrated false → UndoWorks E → RefsKept w t
  recovered : r = .integrated true ∨ r = .alreadyIntegrated true →
    ∃ commits, args.recoveryCommits = some commits ∧ SourcesLanded w.contract commits w

theorem callPost_stays {r : IntegrateResult} (hr : ∀ b, r ≠ .integrated b ∧ r ≠ .alreadyIntegrated true)
    (h : repos t = repos w) : CallPost E args w r t where
  landed hi := absurd hi (hr false).1
  kept _ _ := refsKept_of_repos h
  recovered hi := (hi.elim (hr true).1 (hr true).2).elim

/-- **An integration lands both sources or none.** Whatever commands fail or raise, a call that ends integrated has both
sources at the commits, and the landed ledger maps them; one that ends otherwise, or raises, leaves every branch and
every checkout where it was, as long as what undoes works. -/
theorem integration_all_or_nothing (E : IntegrateEnv C M) (args : IntegrateArgs C M) (w : IntegrateWorld C M) :
    Ends (integrateResult E args) w (CallPost E args w) (fun t => UndoWorks E → RefsKept w t) := by
  have hkept : ∀ t, repos t = repos w → UndoWorks E → RefsKept w t := fun t ht _ => refsKept_of_repos ht
  unfold integrateResult
  refine Ends.seq (ends_require (fun _ => Ends.seq (ends_read ?_)) fun _ => hkept w rfl)
  refine Ends.next ends_recover hkept ?_
  rintro r t ⟨hnone, ht, hresult⟩
  cases r with
  | some result =>
    obtain ⟨hr, hlanded⟩ := hresult result rfl
    refine ends_pure ⟨fun h => ?_, fun _ => hkept t ht, fun _ => hlanded⟩
    rcases hr with rfl | rfl <;> cases h
  | none =>
    obtain rfl := hnone rfl
    have hrefused : ∀ {status : String} {persist : Bool} {v : IntegrateWorld C M}, repos v = repos t →
        Ends (.blocked <$> blocked status persist : Integration C M IntegrateResult) v (CallPost E args t)
          (fun z => UndoWorks E → RefsKept t z) := by
      intro status persist v hv
      refine ends_map ((keeps_blocked status persist v).mono (fun _ z hz => ?_) fun z hz => hkept z (hz.trans hv))
      exact callPost_stays (fun _ => ⟨fun h => (nomatch h), fun h => nomatch h⟩) (hz.trans hv)
    by_cases hcompleted : t.contract.integrationStatus = .completed
    · simp only [if_pos hcompleted]
      exact ends_pure (callPost_stays (fun _ => ⟨fun h => (nomatch h), fun h => nomatch h⟩) rfl)
    simp only [if_neg hcompleted]
    refine Ends.next ends_validate (fun v hv => hkept v (hv ▸ rfl)) ?_
    rintro - v ⟨rfl, hready⟩
    refine Ends.next (keeps_lineageRefuses v) hkept ?_
    rintro refuses y hy
    cases refuses with
    | true => exact hrefused hy
    | false =>
      simp only [Bool.false_eq_true, if_false]
      by_cases hgate : (!args.dryRun && !args.handoverPermitted) = true
      · simp only [if_pos hgate]
        exact ends_pure (callPost_stays (fun _ => ⟨fun h => (nomatch h), fun h => nomatch h⟩) hy)
      simp only [if_neg hgate]
      refine Ends.next (ends_replayRequirements y) (fun z hz => hkept z (hz.trans hy)) ?_
      rintro sources z ⟨hz, hsourced⟩
      by_cases hff : args.strategy = "ff-only" ∧ sources.replayRequired = true
      · simp only [if_pos hff]
        exact hrefused (hz.trans hy)
      simp only [if_neg hff]
      by_cases hdry : args.dryRun = true
      · simp only [if_pos hdry]
        exact ends_pure (callPost_stays (fun _ => ⟨fun h => (nomatch h), fun h => nomatch h⟩) (hz.trans hy))
      simp only [if_neg hdry]
      refine (ends_apply hready (fun hw => sourced_of_repos hy (hsourced hw)) (hz.trans hy)).mono ?_ fun _ h => h
      rintro r a (⟨rfl, hlanded⟩ | ⟨⟨status, rfl⟩, hrefs⟩)
      · exact ⟨fun _ => hlanded, fun h => absurd rfl h, fun h => nomatch h⟩
      · exact ⟨fun h => (nomatch h), fun _ => hrefs, fun h => nomatch h⟩

end

/-! ## A reset that fails -/

def strayLedger : List Char :=
  (MemoryLedger.ledgerToText (MemoryLedger.createInitialLedger "demo" "c1" "m0")).toOption.getD []

def strayContract : IntegrateContract Nat (List Char) where
  kind := "leaf"
  codeSourceBranch := "main"
  codeWorkBranch := "work"
  external := some ⟨"main", "work", some (.root [])⟩
  closeoutStatus := .completed
  approvedForCommit := true
  codeCommit := some (.child (.root 0) 1)
  memoryContentCommit := some (.root [])
  ledgerCommit := some (.child (.root []) strayLedger)
  integrationStatus := .notStarted
  integrationStrategy := ""
  integrated := none
  cleanup := .pending

def strayWorld : IntegrateWorld Nat (List Char) where
  code := forked (.root 0) (.child (.root 0) 1)
  memory := forked (.root []) (.child (.root []) strayLedger)
  contract := strayContract
  journal := none
  sourceMerged := false

def strayEnv : IntegrateEnv Nat (List Char) where
  fate call n := if call.undo ∧ n = 29 then .fails else .works
  codeTool := noMerge
  memoryTool := noMerge
  codeName := codeNames
  memoryName _ := "m1"
  memoryMd := some
  withMemoryMd text _ := text

def ffOnly : IntegrateArgs Nat (List Char) := ⟨false, true, "ff-only", true, none⟩

/-- The code source that a run which raised left. -/
def codeSourceAfter : Ending IntegrateError (IntegrateWorld Nat (List Char)) IntegrateResult → Option (Commit Nat)
  | .raised _ _ t => t.code.branches "main"
  | _ => none

theorem failed_reset_strays : codeSourceAfter (integrateResult strayEnv ffOnly 0 strayWorld) = some (.child (.root 0) 1) := by
  decide +kernel

theorem integration_strays : ¬ ∀ (E : IntegrateEnv Nat (List Char)) (args : IntegrateArgs Nat (List Char))
    (w : IntegrateWorld Nat (List Char)), Ends (integrateResult E args) w
      (fun r t => r ≠ .integrated false → RefsKept w t) (RefsKept w) := by
  intro h
  have hcode := failed_reset_strays
  cases hend : integrateResult strayEnv ffOnly 0 strayWorld with
  | done r n t =>
    rw [hend] at hcode
    cases hcode
  | died t =>
    rw [hend] at hcode
    cases hcode
  | raised e n t =>
    rw [hend] at hcode
    have hkept : RefsKept strayWorld t := Ends.raised (@h strayEnv ffOnly strayWorld) hend
    have hmain : some (.child (.root 0) 1) = strayWorld.code.branches "main" :=
      hcode.symm.trans (congrFun (refs_eq hkept.1).1 "main")
    revert hmain
    decide

end AgentsRemember.Worktree
