import AgentsRemember.Lib.PosixPath
import Mathlib.Logic.Function.Basic

/-!
# Leaf-to-master synchronisation

The row of a leaf in its master says what the leaf's steps say. A plan that is
written is not made again, as long as the row's file leads back to the leaf.
-/

namespace AgentsRemember.Tasks

open Lib

inductive StepStatus where
  | pending
  | inProgress
  | blocked
  | done
deriving DecidableEq

inductive DocStatus where
  | planning
  | inProgress
  | completed
deriving DecidableEq

inductive DocKind where
  | light
  | subTask
  | master
deriving DecidableEq

structure SubStep where
  id : String
  title : String
  status : StepStatus

structure Step extends SubStep where
  substeps : List SubStep

structure SubTaskRef where
  number : String
  name : String
  file : String
  status : DocStatus
  scope : String
deriving DecidableEq

/-- A task document; `rest` holds its other fields. -/
structure TaskDocument (ρ : Type) where
  id : String
  slug : String
  title : String
  kind : DocKind
  status : DocStatus
  master : Option String
  steps : List Step
  subTasks : List SubTaskRef
  rest : ρ

structure CompletionBlocker where
  id : String
  parentId : Option String
  title : String
  status : StepStatus ⊕ DocStatus

inductive MasterSyncError where
  | unreadable (path : PosixPath)
  | notMaster (path : PosixPath)
  | manyRows (number : String) (found : Nat)
  | pointsAt (number : String) (existing leaf : PosixPath)

inductive MasterSyncStatus where
  | none
  | created
  | updated
  | unchanged
deriving DecidableEq

structure MasterSyncPlan (ρ : Type) where
  status : MasterSyncStatus
  master : Option (TaskDocument ρ) := none
  masterJsonPath : Option PosixPath := none
  subtaskNumber : Option String := none

/-- The task documents on disk: no document at a path, one that cannot be read, or one that can. -/
structure Disk (ρ : Type) where
  resolve : PosixPath → PosixPath
  docs : PosixPath → Option (Option (TaskDocument ρ))

def Disk.write {ρ : Type} (d : Disk ρ) (path : PosixPath) (doc : TaskDocument ρ) : Disk ρ :=
  { d with docs := Function.update d.docs path (some (some doc)) }

/-! ## Paths -/

def join (p : PosixPath) (text : String) : PosixPath :=
  let q := PosixPath.ofText text
  if q.anchor = .relative then ⟨p.anchor, p.parts ++ q.parts, p.valid_append q⟩ else q

def parent (p : PosixPath) : PosixPath := ⟨p.anchor, p.parts.dropLast, fun x hx => p.valid x (List.mem_of_mem_dropLast hx)⟩

def nameOf (p : PosixPath) : List Char := p.parts.getLast?.getD []

/-- The name without its suffix, if it has one. -/
def stem? (name : List Char) : Option (List Char) :=
  match name.reverse.takeWhile (· ≠ '.'), name.reverse.dropWhile (· ≠ '.') with
  | _ :: _, '.' :: c :: rest => some (c :: rest).reverse
  | _, _ => none

def withJsonSuffix (p : PosixPath) : PosixPath :=
  match stem? (nameOf p) with
  | none => p
  | some stem =>
    ⟨p.anchor, PosixPath.components (['/'].intercalate (p.parts.dropLast ++ [stem ++ ".json".toList])), PosixPath.components_valid _⟩

section
variable {ρ : Type}

def docStem (doc : TaskDocument ρ) : String := if doc.kind = .subTask then doc.slug else "task"

def markdownPathFor (taskRoot : PosixPath) (doc : TaskDocument ρ) : PosixPath := join taskRoot (docStem doc ++ ".md")

def isRelativeTo (p root : PosixPath) : Bool := p.anchor = root.anchor && root.parts.isPrefixOf p.parts

def Disk.jsonPathFromMasterRef (d : Disk ρ) (taskRoot : PosixPath) (masterRef : String) : Option PosixPath :=
  let candidate := d.resolve (join taskRoot (withJsonSuffix (PosixPath.ofText masterRef)).asPosix)
  let root := d.resolve taskRoot
  if !isRelativeTo candidate root || parent candidate ≠ root then none else some candidate

def Disk.masterJsonPath (d : Disk ρ) (taskRoot : PosixPath) (leaf : TaskDocument ρ) : Option PosixPath :=
  match leaf.master with
  | some masterRef => if masterRef = "" then defaultPath else d.jsonPathFromMasterRef taskRoot masterRef
  | none => defaultPath
where
  defaultPath := if (d.docs (join taskRoot "task.json")).isSome then some (join taskRoot "task.json") else none

/-! ## Readiness -/

def completionBlockers (doc : TaskDocument ρ) : List CompletionBlocker :=
  if doc.kind = .master then
    (doc.subTasks.filter (·.status ≠ .completed)).map fun ref => ⟨ref.number, some doc.id, ref.name, .inr ref.status⟩
  else
    doc.steps.flatMap fun step =>
      (if step.status ≠ .done then [⟨step.id, none, step.title, .inl step.status⟩] else []) ++
        (step.substeps.filter (·.status ≠ .done)).map fun sub => ⟨sub.id, some step.id, sub.title, .inl sub.status⟩

def derivedMasterStatus (leaf : TaskDocument ρ) : DocStatus :=
  let statuses := leaf.steps.map (·.status) ++ leaf.steps.flatMap fun step => step.substeps.map (·.status)
  if statuses ≠ [] ∧ (completionBlockers leaf).isEmpty then .completed
  else if statuses.any (· ≠ .pending) then .inProgress
  else if statuses ≠ [] ∧ leaf.status = .completed then .inProgress
  else leaf.status

def demoteCompletedMasterIfUnresolved (master : TaskDocument ρ) : TaskDocument ρ :=
  if master.kind ≠ .master ∨ master.status ≠ .completed ∨ (completionBlockers master).isEmpty then master
  else { master with status := .inProgress }

/-! ## The plan -/

def subtaskRefFromLeaf (taskRoot : PosixPath) (leaf : TaskDocument ρ) (existing : Option SubTaskRef) : SubTaskRef where
  number := leaf.id
  name := leaf.title
  file := String.ofList (nameOf (markdownPathFor taskRoot leaf))
  status := derivedMasterStatus leaf
  scope := existing.elim "" SubTaskRef.scope

/-- A row's file, seen from the master, is the leaf's Markdown; an empty one is not looked at. -/
def Disk.leadsTo (d : Disk ρ) (path taskRoot : PosixPath) (leaf : TaskDocument ρ) (file : String) : Prop :=
  file = "" ∨ d.resolve (join (parent path) file) = d.resolve (markdownPathFor taskRoot leaf)

instance (d : Disk ρ) (path taskRoot : PosixPath) (leaf : TaskDocument ρ) (file : String) :
    Decidable (d.leadsTo path taskRoot leaf file) := inferInstanceAs (Decidable (_ ∨ _))

def rowsOf (leaf master : TaskDocument ρ) : List SubTaskRef := master.subTasks.filter (·.number = leaf.id)

/-- The row is appended, or put in the place of the first one with the leaf's number. -/
def placed (leaf master : TaskDocument ρ) (existing : Option SubTaskRef) (ref : SubTaskRef) : List SubTaskRef :=
  if existing.isNone then master.subTasks ++ [ref]
  else master.subTasks.set (master.subTasks.findIdx (·.number = leaf.id)) ref

def planned (leaf master : TaskDocument ρ) (existing : Option SubTaskRef) (ref : SubTaskRef) : TaskDocument ρ :=
  demoteCompletedMasterIfUnresolved { master with subTasks := placed leaf master existing ref }

def Disk.planMasterSync (d : Disk ρ) (taskRoot : PosixPath) (leaf : TaskDocument ρ) :
    Except MasterSyncError (MasterSyncPlan ρ) :=
  if leaf.kind ≠ .subTask then .ok { status := .none }
  else
    match d.masterJsonPath taskRoot leaf with
    | none => .ok { status := .none }
    | some path =>
      match d.docs path with
      | none => .ok { status := .none }
      | some none => .error (.unreadable path)
      | some (some master) =>
        let found := rowsOf leaf master
        let existing := found.head?
        let ref := subtaskRefFromLeaf taskRoot leaf existing
        if master.kind ≠ .master then .error (.notMaster path)
        else if 1 < found.length then .error (.manyRows leaf.id found.length)
        else if ¬ d.leadsTo path taskRoot leaf (existing.elim "" SubTaskRef.file) then
          .error (.pointsAt leaf.id (d.resolve (join (parent path) (existing.elim "" SubTaskRef.file)))
            (d.resolve (markdownPathFor taskRoot leaf)))
        else if existing = some ref then .ok ⟨.unchanged, some master, some path, some leaf.id⟩
        else .ok ⟨if existing.isNone then .created else .updated, some (planned leaf master existing ref), some path, some leaf.id⟩

/-! ## What a plan says -/

variable {d : Disk ρ} {path taskRoot : PosixPath} {leaf old master : TaskDocument ρ} {p : MasterSyncPlan ρ}

/-- The one row of the leaf is its projection, and completed only if nothing of the leaf is open. -/
def Agrees (taskRoot : PosixPath) (leaf master : TaskDocument ρ) : Prop :=
  ∃ ref, rowsOf leaf master = [ref] ∧ ref = subtaskRefFromLeaf taskRoot leaf (some ref) ∧
    (ref.status = .completed → completionBlockers leaf = [])

/-- What the plan makes of a stored master. -/
structure Updates (taskRoot : PosixPath) (leaf old master : TaskDocument ρ) : Prop where
  agrees : Agrees taskRoot leaf master
  others : master.subTasks.filter (·.number ≠ leaf.id) = old.subTasks.filter (·.number ≠ leaf.id)
  scope : ∀ row ∈ rowsOf leaf old, ∀ row' ∈ rowsOf leaf master, row'.scope = row.scope
  completed : master.status = .completed → ∀ row ∈ master.subTasks, row.status = .completed
  rest : { master with subTasks := old.subTasks, status := old.status } = old

def Disk.Projects (d : Disk ρ) (taskRoot : PosixPath) (leaf : TaskDocument ρ) : Prop :=
  ∀ plan, d.planMasterSync taskRoot leaf = .ok plan →
    (plan.status = .unchanged → ∃ path master, plan.masterJsonPath = some path ∧ d.docs path = some (some master) ∧
      Agrees taskRoot leaf master) ∧
    (plan.status = .created ∨ plan.status = .updated → ∃ path old master, plan.masterJsonPath = some path ∧
      plan.master = some master ∧ d.docs path = some (some old) ∧ Updates taskRoot leaf old master ∧
      (d.write path master).planMasterSync taskRoot leaf = .ok ⟨.unchanged, some master, some path, some leaf.id⟩)

/-- A readable master with at most one row of the leaf, which leads to the leaf and is not its projection yet. -/
structure Disk.Writes (d : Disk ρ) (taskRoot : PosixPath) (leaf : TaskDocument ρ) (path : PosixPath) (old : TaskDocument ρ) :
    Prop where
  leafKind : leaf.kind = .subTask
  located : d.masterJsonPath taskRoot leaf = some path
  stored : d.docs path = some (some old)
  masterKind : old.kind = .master
  rows : (rowsOf leaf old).length ≤ 1
  leads : d.leadsTo path taskRoot leaf ((rowsOf leaf old).head?.elim "" SubTaskRef.file)
  differs : (rowsOf leaf old).head? ≠ some (subtaskRefFromLeaf taskRoot leaf (rowsOf leaf old).head?)

theorem Disk.Writes.plans (h : d.Writes taskRoot leaf path old) : d.planMasterSync taskRoot leaf =
    .ok ⟨if (rowsOf leaf old).head?.isNone then .created else .updated,
      some (planned leaf old (rowsOf leaf old).head? (subtaskRefFromLeaf taskRoot leaf (rowsOf leaf old).head?)), some path,
      some leaf.id⟩ := by
  simp [planMasterSync, h.leafKind, h.located, h.stored, h.masterKind, Nat.not_lt.mpr h.rows, h.leads, h.differs]

theorem plan_cases (h : d.planMasterSync taskRoot leaf = .ok p) :
    p.status = .none ∨
    (∃ path master ref, p.status = .unchanged ∧ p.masterJsonPath = some path ∧ d.docs path = some (some master) ∧
      leaf.kind = .subTask ∧ rowsOf leaf master = [ref] ∧ ref = subtaskRefFromLeaf taskRoot leaf (some ref)) ∨
    ∃ path old, d.Writes taskRoot leaf path old := by
  unfold Disk.planMasterSync at h
  split at h
  · cases h
    exact .inl rfl
  rename_i hkind
  split at h
  · cases h
    exact .inl rfl
  rename_i path hpath
  split at h
  · cases h
    exact .inl rfl
  · cases h
  rename_i master hstored
  dsimp only at h
  split at h
  · cases h
  rename_i hmaster
  split at h
  · cases h
  rename_i hrows
  split at h
  · cases h
  rename_i hleads
  split at h
  · rename_i hsame
    cases h
    obtain ⟨rest, hcons⟩ := List.head?_eq_some_iff.mp hsame
    rw [hcons] at hrows
    obtain rfl : rest = [] := by simpa using hrows
    exact .inr (.inl ⟨path, master, _, rfl, rfl, hstored, not_not.mp hkind, hcons, by rw [← hsame]⟩)
  · exact .inr (.inr ⟨path, master, not_not.mp hkind, hpath, hstored, not_not.mp hmaster, Nat.not_lt.mp hrows, not_not.mp hleads, ‹_›⟩)

theorem blockers_of_completed (hkind : leaf.kind = .subTask) (h : derivedMasterStatus leaf = .completed) :
    completionBlockers leaf = [] := by
  unfold derivedMasterStatus at h
  dsimp only at h
  split at h
  · exact List.isEmpty_iff.mp (by simp_all)
  split at h
  · cases h
  split at h
  · cases h
  · have hsteps : leaf.steps = [] := by simp_all
    simp [completionBlockers, hkind, hsteps]

theorem planned_eq (leaf : TaskDocument ρ) (hkind : old.kind = .master) (existing : Option SubTaskRef) (ref : SubTaskRef) : ∃ status,
    planned leaf old existing ref = { old with subTasks := placed leaf old existing ref, status := status } ∧
      (status = .completed → ∀ row ∈ placed leaf old existing ref, row.status = .completed) := by
  unfold planned demoteCompletedMasterIfUnresolved
  split
  · rename_i hok
    refine ⟨_, rfl, fun hc => ?_⟩
    have hnone := List.isEmpty_iff.mp ((hok.resolve_left (not_not.mpr hkind)).resolve_left (not_not.mpr hc))
    simpa [completionBlockers, hkind] using hnone
  · exact ⟨_, rfl, nofun⟩

/-- The planned rows are the old ones around the leaf's. -/
theorem placed_rows (hrows : (rowsOf leaf old).length ≤ 1) : ∃ a b,
    old.subTasks = a ++ (rowsOf leaf old).head?.toList ++ b ∧ (∀ row ∈ a ++ b, row.number ≠ leaf.id) ∧
    ∀ ref, placed leaf old (rowsOf leaf old).head? ref = a ++ ref :: b := by
  cases hfound : rowsOf leaf old with
  | nil =>
    refine ⟨old.subTasks, [], by simp, ?_, fun ref => by simp [placed]⟩
    simpa [rowsOf] using hfound
  | cons e rest =>
    obtain rfl : rest = [] := by simpa [hfound] using hrows
    obtain ⟨a, b, hsplit, hbefore, he, hafter⟩ := List.filter_eq_cons_iff.mp hfound
    have hnone : ∀ row ∈ a ++ b, row.number ≠ leaf.id := by simp_all [or_imp, List.filter_eq_nil_iff]
    refine ⟨a, b, by simpa using hsplit, hnone, fun ref => ?_⟩
    have hindex : old.subTasks.findIdx (·.number = leaf.id) = a.length := by
      rw [hsplit, List.findIdx_append, List.findIdx_cons]
      have hlength : a.findIdx (·.number = leaf.id) = a.length := List.findIdx_eq_length.mpr (by simpa using hbefore)
      simp_all
    simp [placed, hindex]
    simp [hsplit]

theorem Disk.Writes.updates (h : d.Writes taskRoot leaf path old) : Updates taskRoot leaf old
    (planned leaf old (rowsOf leaf old).head? (subtaskRefFromLeaf taskRoot leaf (rowsOf leaf old).head?)) := by
  obtain ⟨a, b, hsplit, hothers, hplaced⟩ := placed_rows h.rows
  obtain ⟨status, heq, hcompleted⟩ := planned_eq leaf h.masterKind (rowsOf leaf old).head?
    (subtaskRefFromLeaf taskRoot leaf (rowsOf leaf old).head?)
  rw [heq]
  rw [hplaced] at hcompleted ⊢
  have hnone : a.filter (·.number = leaf.id) = [] ∧ b.filter (·.number = leaf.id) = [] := by
    simp_all [List.filter_eq_nil_iff, or_imp, forall_and]
  have hmine : (a ++ subtaskRefFromLeaf taskRoot leaf (rowsOf leaf old).head? :: b).filter (·.number = leaf.id) =
      [subtaskRefFromLeaf taskRoot leaf (rowsOf leaf old).head?] := by
    simp [hnone, subtaskRefFromLeaf]
  refine ⟨⟨_, hmine, rfl, blockers_of_completed h.leafKind⟩, ?_, ?_, hcompleted, rfl⟩
  · have hrow : (rowsOf leaf old).head?.toList.filter (·.number ≠ leaf.id) = [] := by
      refine List.filter_eq_nil_iff.mpr fun row hrow => ?_
      have hmem := List.mem_of_head? (Option.mem_toList.mp hrow)
      simpa [rowsOf] using (List.mem_filter.mp hmem).2
    rw [hsplit]
    simp only [List.filter_append, List.filter_cons, hrow]
    simp [subtaskRefFromLeaf]
  intro row hrow row' hrow'
  have hwritten : row' ∈ (a ++ subtaskRefFromLeaf taskRoot leaf (rowsOf leaf old).head? :: b).filter (·.number = leaf.id) := hrow'
  rw [hmine, List.mem_singleton] at hwritten
  subst hwritten
  obtain ⟨e, he⟩ : ∃ e, rowsOf leaf old = [e] := by
    have hrows := h.rows
    cases hfound : rowsOf leaf old with
    | nil => simp [hfound] at hrow
    | cons e rest => exact ⟨e, by simpa [hfound] using hrows⟩
  simp_all [subtaskRefFromLeaf]

theorem located_write (h : d.masterJsonPath taskRoot leaf = some path) (master : TaskDocument ρ) :
    (d.write path master).masterJsonPath taskRoot leaf = some path := by
  have hdefault (h : Disk.masterJsonPath.defaultPath d taskRoot = some path) :
      Disk.masterJsonPath.defaultPath (d.write path master) taskRoot = some path := by
    unfold Disk.masterJsonPath.defaultPath at h ⊢
    split at h <;> cases h
    simp [Disk.write]
  unfold Disk.masterJsonPath at h ⊢
  split at h
  · split at h
    · rw [if_pos ‹_›]
      exact hdefault h
    · rw [if_neg ‹_›]
      exact h
  · exact hdefault h

theorem Disk.Writes.replans (h : d.Writes taskRoot leaf path old) {master : TaskDocument ρ} (hkind : master.kind = .master)
    (hagrees : Agrees taskRoot leaf master) : (d.write path master).planMasterSync taskRoot leaf =
      .ok ⟨.unchanged, some master, some path, some leaf.id⟩ ↔
    d.leadsTo path taskRoot leaf (String.ofList (nameOf (markdownPathFor taskRoot leaf))) := by
  obtain ⟨ref, hrows, href, -⟩ := hagrees
  have hfile : ref.file = String.ofList (nameOf (markdownPathFor taskRoot leaf)) := by rw [href]; rfl
  rw [← hfile]
  unfold planMasterSync
  rw [if_neg (not_not.mpr h.leafKind), located_write h.located]
  simp only [write, Function.update_self, hkind, hrows, List.head?_cons, Option.elim_some, ← href]
  rw [if_neg (not_not.mpr rfl), if_neg (by simp)]
  split
  · rename_i hno
    exact ⟨nofun, fun hyes => absurd hyes hno⟩
  · rename_i hyes
    exact ⟨fun _ => not_not.mp hyes, fun _ => by simp⟩

/-- **Synchronisation is a projection** exactly if the file of a row that the plan writes leads back to the leaf. -/
theorem sync_projects_iff (d : Disk ρ) (taskRoot : PosixPath) (leaf : TaskDocument ρ) : d.Projects taskRoot leaf ↔
    ∀ path old, d.Writes taskRoot leaf path old →
      d.leadsTo path taskRoot leaf (String.ofList (nameOf (markdownPathFor taskRoot leaf))) := by
  have hkind {path old} (hw : d.Writes taskRoot leaf path old) (existing : Option SubTaskRef) (ref : SubTaskRef) :
      (planned leaf old existing ref).kind = .master := by
    obtain ⟨status, heq, -⟩ := planned_eq leaf hw.masterKind existing ref
    rw [heq]
    exact hw.masterKind
  constructor
  · intro h path old hw
    have hstatus : (if (rowsOf leaf old).head?.isNone then MasterSyncStatus.created else .updated) = .created ∨
        (if (rowsOf leaf old).head?.isNone then MasterSyncStatus.created else .updated) = .updated := by
      split <;> simp
    obtain ⟨path', old', master, hpath, hmaster, -, -, hreplan⟩ := (h _ hw.plans).2 hstatus
    cases hpath
    cases hmaster
    exact (hw.replans (hkind hw _ _) hw.updates.agrees).mp hreplan
  intro h plan hplan
  rcases plan_cases hplan with hnone | ⟨path, master, ref, hstatus, hpath, hstored, hkind, hrows, href⟩ | ⟨path, old, hw⟩
  · simp [hnone]
  · refine ⟨fun _ => ⟨path, master, hpath, hstored, ref, hrows, href, fun hc => ?_⟩, by simp [hstatus]⟩
    exact blockers_of_completed hkind (by rw [href] at hc; exact hc)
  cases hplan.symm.trans hw.plans
  refine ⟨fun hc => ?_, fun _ => ⟨path, old, _, rfl, rfl, hw.stored, hw.updates, ?_⟩⟩
  · dsimp only at hc
    split at hc <;> cases hc
  · exact (hw.replans (hkind hw _ _) hw.updates.agrees).mpr (h path old hw)

end

/-! A leaf whose slug names a folder: the row holds the bare file name, and the next plan does not find the leaf there. -/

def slashLeaf : TaskDocument Unit := ⟨"L1", "notes/leaf", "Leaf", .subTask, .planning, none, [], [], ()⟩

def slashDisk : Disk Unit where
  resolve := id
  docs := fun path =>
    if path = PosixPath.ofText "/t/task.json" then some (some ⟨"M", "m", "Master", .master, .planning, none, [], [], ()⟩) else none

theorem slash_row_refused : ¬ slashDisk.Projects (PosixPath.ofText "/t") slashLeaf := by
  intro h
  have hpath : join (PosixPath.ofText "/t") "task.json" = PosixPath.ofText "/t/task.json" := by decide
  have hw : slashDisk.Writes (PosixPath.ofText "/t") slashLeaf (PosixPath.ofText "/t/task.json")
      ⟨"M", "m", "Master", .master, .planning, none, [], [], ()⟩ := by
    refine ⟨rfl, ?_, by simp [slashDisk], rfl, Nat.zero_le _, .inl rfl, nofun⟩
    show Disk.masterJsonPath.defaultPath slashDisk _ = _
    rw [Disk.masterJsonPath.defaultPath, hpath]
    simp [slashDisk]
  obtain ⟨path, old, master, hpath, hmaster, -, hupdates, hreplan⟩ := (h _ hw.plans).2 (.inl rfl)
  cases hpath
  cases hmaster
  have hleads := (hw.replans rfl hupdates.agrees).mp hreplan
  exact absurd hleads (by decide)

end AgentsRemember.Tasks
