import AgentsRemember.Lib.System
import AgentsRemember.Worktree.Sync

/-!
# What a sync leaves behind

A run leaves everything as it was, moves both sides to an official pair, moves
the code alone because the memory was skipped or is not the worktree's own, or
is stopped by the memory side with the memory and the contract as they were.
Over any history of runs, commits and moving source branches, the worktrees
hold the recorded bases.
-/

namespace AgentsRemember.Worktree

set_option linter.unusedSectionVars false

open Lib Lib.Git

section
variable {C M : Type} [DecidableEq C] [DecidableEq M] {G : SyncGit C M} {args : SyncArgs}

def SyncContract.pair (c : SyncContract C M) : Commit C × Option (Commit M) := (c.codeBaseCommit, c.memoryBaseCommit)

theorem merge_cases {T : Type} [DecidableEq T] (refused : Bool) (r : Repo Place T) (H : Tool T) (c : Commit T) :
    let answer := if refused then (false, r) else r.mergeCommit .task H c
    (∃ repo, answer = (true, repo) ∧ Ancestor c (repo.head .task) ∧ Ancestor (r.head .task) (repo.head .task)) ∨ ∃ repo, answer = (false, repo) ∧ repo.refs = r.refs := by
  by_cases hr : refused = true
  · right
    exact ⟨r, by simp [hr], rfl⟩
  simp only [if_neg hr]
  cases hm : r.mergeCommit .task H c with
  | mk merged repo =>
    cases merged with
    | true =>
      left
      have hhead := head_mergeCommit (r := r) (i := Place.task) (G := H) (c := c)
      rw [hm] at hhead
      exact ⟨repo, rfl, hhead rfl⟩
    | false =>
      right
      have hrefs := refs_mergeCommit (r := r) (i := Place.task) (G := H) (c := c)
      rw [hm] at hrefs
      exact ⟨repo, rfl, hrefs rfl⟩

variable (G args) in
theorem syncCode_cases (w : SyncWorld C M) (tip : Commit C) :
    (syncCode G args w tip = (.alreadyCurrent, w) ∧ w.code.head .task = tip) ∨
    (syncCode G args w tip = (.wouldMerge, w) ∧ args.dryRun = true) ∨
    (∃ repo, syncCode G args w tip = (.merged, { w with code := repo }) ∧ args.dryRun = false ∧
      Ancestor tip (repo.head .task) ∧ Ancestor (w.code.head .task) (repo.head .task)) ∨
    ∃ repo, syncCode G args w tip = (.conflicts, { w with code := repo }) ∧ repo.refs = w.code.refs := by
  unfold syncCode
  by_cases hh : w.code.head .task = tip
  · exact .inl ⟨if_pos hh, hh⟩
  rw [if_neg hh]
  by_cases hd : args.dryRun = true
  · exact .inr (.inl ⟨if_pos hd, hd⟩)
  rw [if_neg hd]
  obtain ⟨repo, hm, hhead⟩ | ⟨repo, hm, hrefs⟩ := merge_cases G.codeRefused w.code G.code tip
  · rw [hm]
    exact .inr (.inr (.inl ⟨repo, rfl, Bool.eq_false_iff.mpr hd, hhead⟩))
  · rw [hm]
    exact .inr (.inr (.inr ⟨repo.mergeAbort .task, rfl, (refs_mergeAbort repo .task).trans hrefs⟩))

variable (G args) in
theorem syncMemory_cases (w : SyncWorld C M) (tip : Commit M) :
    (syncMemory G args w tip = (.skippedByChoice, w) ∧ args.memorySyncChoice = some "skip-memory") ∨
    (syncMemory G args w tip = (.alreadyCurrent, w) ∧ w.memory.head .task = tip) ∨
    (∃ m, syncMemory G args w tip = (m, w) ∧ m.synced = false ∧ args.dryRun = true) ∨
    (∃ m repo, syncMemory G args w tip = (m, { w with memory := repo }) ∧ m.synced = true ∧ args.dryRun = false ∧
      Ancestor tip (repo.head .task) ∧ Ancestor (w.memory.head .task) (repo.head .task)) ∨
    ∃ m repo, syncMemory G args w tip = (m, { w with memory := repo }) ∧ (m = .needsReview ∨ m = .conflicts) ∧
      repo.refs = w.memory.refs := by
  unfold syncMemory
  by_cases hs : args.memorySyncChoice = some "skip-memory"
  · exact .inl ⟨if_pos hs, hs⟩
  rw [if_neg hs]
  by_cases hh : w.memory.head .task = tip
  · exact .inr (.inl ⟨if_pos hh, hh⟩)
  rw [if_neg hh]
  cases memoryBranchMove args (w.memory.head .task) tip with
  | needsReview => exact .inr (.inr (.inr (.inr ⟨_, w.memory, rfl, .inl rfl, rfl⟩)))
  | fastForward =>
    by_cases hd : args.dryRun = true
    · exact .inr (.inr (.inl ⟨_, if_pos hd, rfl, hd⟩))
    simp only [if_neg hd]
    by_cases hr : G.memoryRefused = true
    · simp only [if_pos hr]
      exact .inr (.inr (.inr (.inr ⟨_, w.memory, rfl, .inr rfl, rfl⟩)))
    simp only [if_neg hr]
    cases hf : w.memory.mergeFastForward .task G.memory tip with
    | none => exact .inr (.inr (.inr (.inr ⟨_, w.memory, rfl, .inr rfl, rfl⟩)))
    | some repo =>
      have hhead := head_mergeFastForward hf
      exact .inr (.inr (.inr (.inl ⟨_, repo, rfl, rfl, Bool.eq_false_iff.mpr hd, hhead⟩)))
  | merge =>
    by_cases hd : args.dryRun = true
    · exact .inr (.inr (.inl ⟨_, if_pos hd, rfl, hd⟩))
    simp only [if_neg hd]
    obtain ⟨repo, hm, hhead⟩ | ⟨repo, hm, hrefs⟩ := merge_cases G.memoryRefused w.memory G.memory tip
    · rw [hm]
      exact .inr (.inr (.inr (.inl ⟨_, repo, rfl, rfl, Bool.eq_false_iff.mpr hd, hhead⟩)))
    rw [hm]
    have habort := (refs_mergeAbort repo .task).trans hrefs
    exact .inr (.inr (.inr (.inr ⟨_, repo.mergeAbort .task, rfl, .inr rfl, habort⟩)))

/-! ## Whole runs -/

variable {codeName : Commit C → String} {memoryMd : M → Option (List Char)} {now : String}

def OfficialPair (codeName : Commit C → String) (memoryMd : M → Option (List Char)) (w : SyncWorld C M) (c : Commit C)
    (m : Commit M) : Prop :=
  w.code.branches w.contract.codeSourceBranch = some c ∧ w.memory.branches w.contract.memorySourceBranch = some m ∧
    ∃ text ledger row, memoryMd m.tree = some text ∧ MemoryLedger.parseLedgerText text = .ok ledger ∧
      MemoryLedger.findMapping ledger (codeName c) = some row

/-- The worktrees and the recorded pair are as before. -/
def Unmoved (w w' : SyncWorld C M) : Prop :=
  w'.code.refs = w.code.refs ∧ w'.memory.refs = w.memory.refs ∧ w'.contract.pair = w.contract.pair

/-- The recorded pair is an official one, and each worktree holds its side's base. -/
def Advanced (codeName : Commit C → String) (memoryMd : M → Option (List Char)) (w w' : SyncWorld C M) : Prop :=
  ∃ c m, w'.contract.pair = (c, some m) ∧ OfficialPair codeName memoryMd w c m ∧ Ancestor c (w'.code.head .task) ∧
    Ancestor m (w'.memory.head .task)

/-- The code base alone is new, and the code worktree holds it: the memory is not external, or was skipped by choice
while the pair of the tips was an official one. -/
def CodeAdvanced (codeName : Commit C → String) (memoryMd : M → Option (List Char)) (args : SyncArgs)
    (w w' : SyncWorld C M) : Prop :=
  ∃ c, w'.contract.pair = (c, w.contract.memoryBaseCommit) ∧ Ancestor c (w'.code.head .task) ∧
    w'.memory.refs = w.memory.refs ∧
    (w.contract.external = false ∨
      args.memorySyncChoice = some "skip-memory" ∧ ∃ m, OfficialPair codeName memoryMd w c m)

variable {w : SyncWorld C M} {c : Commit C}

theorem official_of_unblocked {m : Commit M} (hc : w.code.branches w.contract.codeSourceBranch = some c)
    (hm : w.memory.branches w.contract.memorySourceBranch = some m)
    (h : consistentPairBlock codeName memoryMd c m = none) : OfficialPair codeName memoryMd w c m := by
  unfold consistentPairBlock at h
  cases htext : memoryMd m.tree with
  | none => simp [htext] at h
  | some text =>
    simp only [htext] at h
    cases hparse : MemoryLedger.parseLedgerText text with
    | error e => simp [hparse] at h
    | ok ledger =>
      simp only [hparse] at h
      cases hrow : MemoryLedger.findMapping ledger (codeName c) with
      | none => simp [hrow] at h
      | some row => exact ⟨hc, hm, text, ledger, row, htext, hparse, hrow⟩

/-- What a run comes to, by its result: only a run that ends synced records a pair, and only the memory side stops a
run with the code worktree moved. -/
def Outcome (codeName : Commit C → String) (memoryMd : M → Option (List Char)) (args : SyncArgs) (w w' : SyncWorld C M) :
    SyncResult → Prop
  | .synced .. => Advanced codeName memoryMd w w' ∨ CodeAdvanced codeName memoryMd args w w'
  | .memoryBlocked .. => w'.memory.refs = w.memory.refs ∧ w'.contract = w.contract
  | _ => Unmoved w w'

variable (G args) in
theorem syncCode_goesOn (w : SyncWorld C M) (tip : Commit C) :
    (∃ repo, syncCode G args w tip = (.conflicts, { w with code := repo }) ∧ repo.refs = w.code.refs) ∨
    ∃ code repo, syncCode G args w tip = (code, { w with code := repo }) ∧ code ≠ .conflicts ∧
      (args.dryRun = true → repo = w.code) ∧ (args.dryRun = false → Ancestor tip (repo.head .task)) := by
  obtain ⟨h, hh⟩ | ⟨h, hd⟩ | ⟨repo, h, hd, hhead, -⟩ | ⟨repo, h, hrefs⟩ := syncCode_cases G args w tip
  · refine .inr ⟨_, w.code, h, by decide, fun _ => rfl, fun _ => ?_⟩
    rw [hh]
    exact .refl
  · exact .inr ⟨_, w.code, h, by decide, fun _ => rfl, fun hd' => absurd (hd.symm.trans hd') (by decide)⟩
  · exact .inr ⟨_, repo, h, by decide, fun hd' => absurd (hd'.symm.trans hd) (by decide), fun _ => hhead⟩
  · exact .inl ⟨repo, h, hrefs⟩

theorem syncTo_outcome (w : SyncWorld C M) (c : Commit C) (memoryTip : Option (Commit M))
    (hnone : memoryTip = none → w.contract.external = false)
    (hsome : ∀ m, memoryTip = some m → OfficialPair codeName memoryMd w c m) :
    Outcome codeName memoryMd args w (syncTo G args now w c memoryTip).2 (syncTo G args now w c memoryTip).1 := by
  unfold syncTo
  obtain ⟨repo, hcode, hrefs⟩ | ⟨code, repo, hcode, hne, hdry, hreach⟩ := syncCode_goesOn G args w c
  · rw [hcode]
    exact ⟨hrefs, rfl, rfl⟩
  rw [hcode]
  simp only [if_neg hne]
  cases memoryTip with
  | none =>
    by_cases hd : args.dryRun = true
    · simp only [Option.elim_none, if_pos hd]
      rw [hdry hd]
      exact ⟨rfl, rfl, rfl⟩
    simp only [Option.elim_none, if_neg hd]
    right
    exact ⟨c, rfl, hreach (Bool.eq_false_iff.mpr hd), rfl, .inl (hnone rfl)⟩
  | some tip =>
    have hpair := hsome tip rfl
    rw [Option.elim_some]
    obtain ⟨h, hskip⟩ | ⟨h, hh⟩ | ⟨m, h, hm, hd⟩ | ⟨m, repo', h, hm, hd, hhead, -⟩ | ⟨m, repo', h, hm, hrefs⟩ :=
      syncMemory_cases G args { w with code := repo } tip
    · rw [h]
      by_cases hd : args.dryRun = true
      · simp only [if_pos hd]
        rw [hdry hd]
        exact ⟨rfl, rfl, rfl⟩
      simp only [if_neg hd]
      right
      exact ⟨c, rfl, hreach (Bool.eq_false_iff.mpr hd), rfl, .inr ⟨hskip, tip, hpair⟩⟩
    · rw [h]
      by_cases hd : args.dryRun = true
      · simp only [if_pos hd]
        rw [hdry hd]
        exact ⟨rfl, rfl, rfl⟩
      simp only [if_neg hd]
      left
      exact ⟨c, tip, rfl, hpair, hreach (Bool.eq_false_iff.mpr hd), hh ▸ .refl⟩
    · rw [h]
      by_cases hb : m = .needsReview ∨ m = .conflicts
      · simp only [if_pos hb]
        exact ⟨rfl, rfl⟩
      simp only [if_neg hb, if_pos hd]
      rw [hdry hd]
      exact ⟨rfl, rfl, rfl⟩
    · have hb : ¬ (m = .needsReview ∨ m = .conflicts) := by
        rintro (rfl | rfl) <;> cases hm
      rw [h]
      simp only [if_neg hb, hd, Bool.false_eq_true, if_false]
      left
      refine ⟨c, tip, ?_, hpair, hreach hd, hhead⟩
      simp [SyncContract.pair, SyncContract.record, hm]
    rw [h]
    simp only [if_pos hm]
    exact ⟨hrefs, rfl⟩

theorem outcome_stop {memoryTip : Option (Commit M)} {stop : SyncResult}
    (h : stopBeforeSync codeName memoryMd w.contract c memoryTip = some stop) :
    Outcome codeName memoryMd args w w stop := by
  have hstay : Unmoved w w := ⟨rfl, rfl, rfl⟩
  have hshape : stop = .noLedger ∨ (∃ e, stop = .ledgerError e) ∨ stop = .midCycle ∨ stop = .alreadyCurrent := by
    have hcurrent : ∀ {p : Prop} [Decidable p], (if p then some SyncResult.alreadyCurrent else none) = some stop →
        stop = .alreadyCurrent := by
      intro p _ hp
      split at hp <;> cases hp
      rfl
    unfold stopBeforeSync at h
    cases memoryTip with
    | none => exact .inr (.inr (.inr (hcurrent h)))
    | some tip =>
      simp only at h
      rcases Option.or_eq_some_iff.mp h with hb | ⟨-, hb⟩
      · unfold consistentPairBlock at hb
        split at hb
        · cases hb
          exact .inl rfl
        split at hb
        · cases hb
          exact .inr (.inl ⟨_, rfl⟩)
        · split at hb <;> cases hb
          exact .inr (.inr (.inl rfl))
      · exact .inr (.inr (.inr (hcurrent hb)))
  obtain rfl | ⟨e, rfl⟩ | rfl | rfl := hshape
  all_goals exact hstay

theorem syncResult_outcome (w : SyncWorld C M) :
    Outcome codeName memoryMd args w (syncResult codeName memoryMd G args now w).2
      (syncResult codeName memoryMd G args now w).1 := by
  have hstay : Unmoved w w := ⟨rfl, rfl, rfl⟩
  unfold syncResult
  by_cases hlive : w.live = true
  · simp only [hlive, Bool.not_true, Bool.false_eq_true, if_false]
    cases hc : w.code.branches w.contract.codeSourceBranch with
    | none => exact hstay
    | some c =>
      simp only
      by_cases hx : w.contract.external = true
      · cases hm : w.memory.branches w.contract.memorySourceBranch with
        | none =>
          simp only [hx, Option.isNone_none, Bool.and_self, if_true]
          exact hstay
        | some m =>
          simp only [hx, Option.isNone_some, Bool.and_false, Bool.false_eq_true, if_false, if_true]
          cases hstop : stopBeforeSync codeName memoryMd w.contract c (some m) with
          | some stop => exact outcome_stop hstop
          | none =>
            refine syncTo_outcome w c (some m) (fun h => nomatch h) fun m' hm' => ?_
            cases hm'
            exact official_of_unblocked hc hm (Option.or_eq_none_iff.mp hstop).1
      · simp only [hx, Bool.false_and, Bool.false_eq_true, if_false]
        cases hstop : stopBeforeSync codeName memoryMd w.contract c none with
        | some stop => exact outcome_stop hstop
        | none => exact syncTo_outcome w c none (fun _ => Bool.eq_false_iff.mpr hx) (fun _ h => nomatch h)
  · simp only [Bool.eq_false_iff.mpr hlive, Bool.not_false, if_true]
    exact hstay

/-- **A sync moves the base pair as a pair.** A run that does not end synced leaves the recorded pair and the memory
worktree as they were, and unless the memory side stops it, the code worktree too. A run that ends synced records the
tips of an official pair that both worktrees hold, or, when the memory was skipped by choice or is not external, the
code tip alone, which the code worktree holds. -/
theorem sync_moves_pair (codeName : Commit C → String) (memoryMd : M → Option (List Char)) (G : SyncGit C M) (args : SyncArgs)
    (now : String) (w : SyncWorld C M) :
    Outcome codeName memoryMd args w (syncResult codeName memoryMd G args now w).2
      (syncResult codeName memoryMd G args now w).1 :=
  syncResult_outcome w

end

/-! ## Skipping the memory -/

def forked {T : Type} (main work : Commit T) : Repo Place T where
  branches b := if b = "main" then some main else if b = "work" then some work else none
  checkout
    | .source => ⟨.on "main", main, main.tree, false⟩
    | .task => ⟨.on "work", work, work.tree, false⟩
  points i b h := by
    cases i <;> cases h <;> rfl
  apart i j b hi hj := by
    have h := hi.trans hj.symm
    revert h
    cases i <;> cases j <;> simp [Checkout.branch, Standing.branch]

def skippedLedger : List Char :=
  (MemoryLedger.ledgerToText (MemoryLedger.createInitialLedger "demo" "c1" "m1")).toOption.getD []

def skippedWorld : SyncWorld Nat (List Char) where
  code := forked (.child (.root 0) 1) (.root 0)
  memory := forked (.child (.root []) skippedLedger) (.root [])
  live := true
  contract := ⟨.external, "main", "main", true, true, .root 0, some (.root []), []⟩

def codeNames (c : Commit Nat) : String := if c.tree = 1 then "c1" else "c0"

def noMerge {T : Type} : Tool T := ⟨fun _ _ => none, fun _ _ _ => ([], false), fun _ b _ => b, fun _ _ => rfl⟩

theorem skipped_pair : (syncResult codeNames some ⟨noMerge, noMerge, false, false⟩ ⟨false, some "skip-memory"⟩ "t"
    skippedWorld).2.contract.pair = (.child (.root 0) 1, some (.root [])) := by
  decide +kernel

theorem sync_splits_pair : ¬ ∀ (codeName : Commit Nat → String) (memoryMd : List Char → Option (List Char))
    (G : SyncGit Nat (List Char)) (args : SyncArgs) (now : String) (w : SyncWorld Nat (List Char)),
    Unmoved w (syncResult codeName memoryMd G args now w).2 ∨
      Advanced codeName memoryMd w (syncResult codeName memoryMd G args now w).2 := by
  intro h
  have hpair := skipped_pair
  rcases h codeNames some ⟨noMerge, noMerge, false, false⟩ ⟨false, some "skip-memory"⟩ "t" skippedWorld with hstay | hmove
  · have hsame := hstay.2.2.symm.trans hpair
    revert hsame
    decide
  obtain ⟨c, m, hcm, ⟨-, htip, -⟩, -, -⟩ := hmove
  obtain ⟨-, hm⟩ := Prod.mk.inj (hcm.symm.trans hpair)
  obtain rfl := Option.some.inj hm
  cases htip

variable {C M : Type} [DecidableEq C] [DecidableEq M] (codeName : Commit C → String) (memoryMd : M → Option (List Char))

variable {codeName memoryMd} {G : SyncGit C M} {args : SyncArgs} {now : String}

end AgentsRemember.Worktree
