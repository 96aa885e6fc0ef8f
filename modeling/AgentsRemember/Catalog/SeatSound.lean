import AgentsRemember.Catalog.UpdateSound

/-!
# One occupant per seat

No two running rows are bound to one seat, or staged for one, in every run whose
writes put a row into a seat only when no other running row has it. The check of
an open finds the seat that it names free; the seat that a reopened row kept, a
revived row and an upserted copy are not checked.
-/

namespace AgentsRemember.Catalog

open Lib
open Inbox (TaskDocumentRef)

inductive Hold
  | bound | staged

def TerminalCatalogEntry.held (e : TerminalCatalogEntry) : Hold → Option TaskDocumentRef
  | .bound => e.taskDocumentRef
  | .staged => e.replacementForTaskDocumentRef

def OpenRequest.held (r : OpenRequest) : Hold → Option TaskDocumentRef
  | .bound => r.taskDocumentRef
  | .staged => r.replacementForTaskDocumentRef

structure Holds (e : TerminalCatalogEntry) (hold : Hold) (ref : TaskDocumentRef) (seatRole : String) : Prop where
  running : e.status = .running
  named : e.held hold = some ref
  role : e.bindingRole = seatRole

def SeatFree (rows : Rows) (session : String) (hold : Hold) (ref : TaskDocumentRef) (seatRole : String) : Prop :=
  ∀ other e, rows.get? other = some e → Holds e hold ref seatRole → other = session

def OneOccupant (rows : Rows) : Prop :=
  ∀ session e, rows.get? session = some e → ∀ hold ref seatRole, Holds e hold ref seatRole →
    SeatFree rows session hold ref seatRole

def Mutation.Revives (e : TerminalCatalogEntry) : Mutation → Prop
  | .attached _ => e.status = .exited ∨ e.status = .terminated
  | .livenessProbe none _ _ => e.status = .exited
  | _ => False

/-- A revived row, the seats that a reopened row kept, and a running copy find their seats free. -/
def SeatRespected (s : TerminalCatalog) : Command → Prop
  | .mutate session m => ∀ e, s.rows.get? session = some e → m.Revives e → ∀ hold ref, e.held hold = some ref →
      SeatFree s.rows session hold ref e.bindingRole
  | .upsert session copy u => copy.status = .running → ∀ hold ref, (u.apply copy).held hold = some ref →
      SeatFree s.rows session hold ref (u.apply copy).bindingRole
  | .openTerminal session r => ∀ e, s.rows.get? session = some e → ∀ hold ref, e.held hold = some ref →
      r.held hold = some ref ∨ SeatFree s.rows session hold ref (openedSeatRole (some e) r)
  | _ => True

section
variable {clock : Clock} {outside : Outside} {s : TerminalCatalog} {rows rows' : Rows} {session seatRole : String} {hold : Hold}
  {ref : TaskDocumentRef} {e row : TerminalCatalogEntry}

theorem occupies_iff : occupies ref seatRole e = true ↔ Holds e .bound ref seatRole := by
  rw [occupies, decide_eq_true_iff]
  exact ⟨fun ⟨h, hr, hs⟩ => ⟨hr, h, hs⟩, fun ⟨hr, h, hs⟩ => ⟨h, hr, hs⟩⟩

theorem replaces_iff : replaces ref seatRole e = true ↔ Holds e .staged ref seatRole := by
  rw [replaces, decide_eq_true_iff]
  exact ⟨fun ⟨h, hr, hs⟩ => ⟨hr, h, hs⟩, fun ⟨hr, h, hs⟩ => ⟨h, hr, hs⟩⟩

/-! ## Writes -/

theorem SeatFree.mono (h : SeatFree rows session hold ref seatRole)
    (hsub : ∀ other e, rows'.get? other = some e → e.status = .running → rows.get? other = some e) :
    SeatFree rows' session hold ref seatRole :=
  fun other e he hholds => h other e (hsub other e he hholds.running) hholds

theorem OneOccupant.mono (h : OneOccupant rows)
    (hsub : ∀ other e, rows'.get? other = some e → e.status = .running → rows.get? other = some e) : OneOccupant rows' :=
  fun session e he _ _ _ hholds => (h session e (hsub session e he hholds.running) _ _ _ hholds).mono hsub

theorem OneOccupant.write (h : OneOccupant s.rows) {sets : Column → Bool}
    (hfree : ∀ hold ref seatRole, Holds row hold ref seatRole → SeatFree s.rows session hold ref seatRole) :
    OneOccupant (s.write session row sets).rows := by
  intro a e ha hold ref seatRole he b e' hb he'
  rw [TerminalCatalog.write, Dict.get?_set] at ha hb
  split at ha
  · rename_i hsa
    cases ha
    split at hb
    · rename_i hsb
      exact hsb.symm.trans hsa
    · exact (hfree _ _ _ he b e' hb he').trans hsa
  rename_i hsa
  split at hb
  · cases hb
    exact absurd (hfree _ _ _ he' a e ha he).symm hsa
  · exact h a e ha _ _ _ he b e' hb he'

variable {e' : TerminalCatalogEntry} {m : Mutation} {s' : TerminalCatalog} {r : OpenRequest}
  {includeTerminated : Bool} {p : String × TerminalCatalogEntry → Bool} {a b : String × TerminalCatalogEntry}
  {rest : List (String × TerminalCatalogEntry)}

theorem held_of_columns (hlaunch : Column.launch.read e' = Column.launch.read e)
    (hbinding : Column.binding.read e' = Column.binding.read e) :
    e'.held hold = e.held hold ∧ e'.bindingRole = e.bindingRole := by
  obtain ⟨hkind, -, -, -, -, hspawn, hstaged, -⟩ := by simpa only [Column.read, Column.Value, Prod.mk.injEq] using hlaunch
  obtain ⟨hbound, hrole⟩ := by simpa only [Column.read, Column.Value, Prod.mk.injEq] using hbinding
  refine ⟨?_, by rw [TerminalCatalogEntry.bindingRole, hrole, hspawn, hkind, TerminalCatalogEntry.bindingRole]⟩
  cases hold with
  | bound => exact hbound
  | staged => exact hstaged

open TerminalCatalogEntry in
theorem Mutation.running_of (h : m.apply clock e = some e') (hr : e'.status = .running) :
    e.status = .running ∨ m.Revives e := by
  cases m with
  | attached attachedAt =>
    cases he : e.status with
    | running => exact .inl rfl
    | exited => exact .inr (.inl he)
    | terminated => exact .inr (.inr he)
    | landed =>
      cases h
      rw [withAttachment, he] at hr
      cases hr
  | exited =>
    cases h
    split at hr
    · exact .inl hr
    · cases hr
  | livenessProbe evidence checkedAt hysteresis =>
    cases evidence with
    | none =>
      cases he : e.status with
      | running => exact .inl rfl
      | exited => exact .inr he
      | terminated =>
        cases h
        rw [withLivenessSuccess, if_pos he, he] at hr
        cases hr
      | landed =>
        cases h
        simp only [withLivenessSuccess, he] at hr
        cases hr
    | some evidence =>
      simp only [apply, withLivenessFailure] at h
      split at h
      · cases h
        exact .inl hr
      · rename_i hrunning
        exact .inl (not_not.mp hrunning)
  | terminated terminatedAt =>
    cases h
    cases hr
  | retired closure =>
    cases h
    unfold withRetirement at hr
    split at hr
    · exact .inl hr
    · cases hr
  | landed closure =>
    cases h
    unfold withLanding at hr
    split at hr
    · exact .inl hr
    · cases hr
  | label text =>
    cases h
    exact .inl hr
  | sessionLog entryId path =>
    cases h
    exact .inl hr
  | turnState state changedAt =>
    cases h
    unfold withTurnState at hr
    split at hr <;> exact .inl hr

theorem OneOccupant.mutate (h : OneOccupant s.rows) (hok : SeatRespected s (.mutate session m)) :
    OneOccupant (s.mutate clock session m).2.rows := by
  unfold TerminalCatalog.mutate
  cases hrow : s.rows.get? session with
  | none => exact h
  | some e =>
    cases he : m.apply clock e with
    | none => simpa only [he] using h
    | some e' =>
      simp only [he]
      refine h.write fun hold ref seatRole hholds => ?_
      obtain ⟨hheld, hrole⟩ := held_of_columns (m.frame .launch he (by cases m <;> rfl))
        (m.frame .binding he (by cases m <;> rfl))
      obtain ⟨hr, hnamed, rfl⟩ := hholds
      rw [hrole]
      rcases m.running_of he hr with hr' | hrevives
      · exact h session e hrow _ _ _ ⟨hr', hheld.symm.trans hnamed, rfl⟩
      · exact hok e hrow hrevives hold ref (hheld.symm.trans hnamed)

theorem get?_exited {owner other : String} (h : (s.mutate clock owner .exited).2.rows.get? other = some e)
    (hr : e.status = .running) : other ≠ owner ∧ s.rows.get? other = some e := by
  by_cases hs : owner = other
  · subst hs
    unfold TerminalCatalog.mutate at h
    cases hrow : s.rows.get? owner with
    | none => simp [hrow] at h
    | some e₀ =>
      rw [hrow] at h
      simp only [Mutation.apply, TerminalCatalog.write, Dict.get?_set_self, Option.some.injEq] at h
      subst h
      split at hr
      · rename_i hended
        rw [hr] at hended
        cases hended <;> contradiction
      · cases hr
  · exact ⟨fun hs' => hs hs'.symm, (get?_mutate_ne hs).symm.trans h⟩

/-! ## The check of an open -/

theorem mem_listed (hrow : rows.get? session = some e) (hr : e.status = .running) (includeTerminated : Bool) :
    (session, e) ∈ rowsListed rows includeTerminated :=
  List.mem_filter.mpr ⟨Dict.get?_eq_some.mp hrow, by simp [hr]⟩

theorem seatFree_of_boundChecked (h : s.taskBindingConflictOwner clock outside ref session seatRole = (.ok none, s')) :
    SeatFree s'.rows session .bound ref seatRole := by
  have hlisted : ∀ {other e}, s.rows.get? other = some e → Holds e .bound ref seatRole →
      (other, e) ∈ (rowsListed s.rows false).filter fun e => occupies ref seatRole e.2 :=
    fun hrow hholds => List.mem_filter.mpr ⟨mem_listed hrow hholds.running false, occupies_iff.mpr hholds⟩
  intro other e hrow hholds
  simp only [TerminalCatalog.taskBindingConflictOwner, activeForTask] at h
  split at h
  · cases h
  · rename_i hnone
    cases h
    have := hlisted hrow hholds
    split at hnone <;> simp_all
  rename_i owner e₀ hsome
  split at hsome
  · cases hsome
  · rename_i hfilter
    cases hsome
    split at h
    · rename_i howner
      cases h
      have := hlisted hrow hholds
      rw [hfilter, List.mem_singleton] at this
      exact (congrArg Prod.fst this).trans howner
    split at h
    · cases h
    cases h
    obtain ⟨hne, hrow'⟩ := get?_exited hrow hholds.running
    have := hlisted hrow' hholds
    rw [hfilter, List.mem_singleton] at this
    exact absurd (congrArg Prod.fst this) hne
  · cases hsome

theorem seatFree_of_candidatesChecked {candidates : List (String × TerminalCatalogEntry)} :
    ∀ {s s' : TerminalCatalog}, (∀ other e, s.rows.get? other = some e → Holds e .staged ref seatRole →
      other = session ∨ (other, e) ∈ candidates) →
    TerminalCatalog.replacementConflictAmong clock outside ref session seatRole candidates s = (none, s') →
    SeatFree s'.rows session .staged ref seatRole := by
  induction candidates with
  | nil =>
    intro s s' hleft h other e hrow hholds
    cases h
    exact (hleft other e hrow hholds).resolve_right List.not_mem_nil
  | cons head rest ih =>
    obtain ⟨candidate, e₀⟩ := head
    intro s s' hleft h
    simp only [TerminalCatalog.replacementConflictAmong] at h
    split at h
    · rename_i hskip
      refine ih (fun other e hrow hholds => ?_) h
      rcases hleft other e hrow hholds with hs | hmem
      · exact .inl hs
      rcases List.mem_cons.mp hmem with heq | hmem
      · cases heq
        rw [replaces_iff.mpr hholds] at hskip
        exact .inl (hskip.resolve_right (by simp))
      · exact .inr hmem
    split at h
    · cases h
    refine ih (fun other e hrow hholds => ?_) h
    obtain ⟨hne, hrow'⟩ := get?_exited hrow hholds.running
    rcases hleft other e hrow' hholds with hs | hmem
    · exact .inl hs
    rcases List.mem_cons.mp hmem with heq | hmem
    · cases heq
      exact absurd rfl hne
    · exact .inr hmem

theorem seatFree_of_checked (h : s.bindingConflictOwner clock outside r session seatRole = (.ok none, s'))
    (hnamed : r.held hold = some ref)
    (hboth : ¬(r.taskDocumentRef.isSome = true ∧ r.replacementForTaskDocumentRef.isSome = true)) :
    SeatFree s'.rows session hold ref seatRole := by
  unfold TerminalCatalog.bindingConflictOwner at h
  cases hold with
  | bound =>
    rw [show r.taskDocumentRef = some ref from hnamed] at h
    exact seatFree_of_boundChecked h
  | staged =>
    have hstaged : r.replacementForTaskDocumentRef = some ref := hnamed
    cases hbound : r.taskDocumentRef with
    | some bound => simp [hbound, hstaged] at hboth
    | none =>
      rw [hbound, hstaged] at h
      simp only [Prod.mk.injEq, Except.ok.injEq] at h
      have hchecked : TerminalCatalog.replacementConflictAmong clock outside ref session seatRole (rowsListed s.rows false) s =
          (none, s') := Prod.ext h.1 h.2
      exact seatFree_of_candidatesChecked (fun other e hrow hholds => .inr (mem_listed hrow hholds.running false)) hchecked

theorem running_of_checked (s : TerminalCatalog) (clock : Clock) (outside : Outside) (r : OpenRequest)
    (session seatRole : String) : ∀ other e,
    (s.bindingConflictOwner clock outside r session seatRole).2.rows.get? other = some e → e.status = .running →
      s.rows.get? other = some e := by
  let Kept (t : TerminalCatalog) : Prop := ∀ other e, t.rows.get? other = some e → e.status = .running →
    s.rows.get? other = some e
  have hstep : ∀ t owner, Kept t → Kept (t.mutate clock owner .exited).2 :=
    fun t owner hkept other e he hr => hkept other e (get?_exited he hr).2 hr
  exact bindingConflictOwner_keeps hstep fun other e he _ => he

theorem clean_idem (role : Option String) : clean (clean role) = clean role := by
  cases role with
  | none => rfl
  | some text =>
    have hstrip : Lines.stripText (Lines.stripText text) = Lines.stripText text := by
      simp [Lines.stripText, Lines.strip_idem]
    have hclean : ∀ t, clean (some t) = if Lines.stripText t = "" then none else some (Lines.stripText t) := by
      intro t
      by_cases h : Lines.stripText t = "" <;> simp [clean, Option.filter, h]
    rw [hclean]
    split
    · rfl
    · rename_i hblank
      rw [hclean, hstrip, if_neg hblank]

theorem bindingRole_opened (existing : Option TerminalCatalogEntry) (r : OpenRequest) :
    (openedCatalogEntry session existing r (openedSeatRole existing r)).bindingRole = openedSeatRole existing r := by
  simp only [TerminalCatalogEntry.bindingRole, openedCatalogEntry, openedSeatRole, migratedSeatRole]
  split
  · rfl
  generalize hfound : ((clean (existing.bind TerminalCatalogEntry.seatRole)).or
    (clean (pyOr r.spawnRole (existing.bind TerminalCatalogEntry.spawnRole)))) = found
  have hclean : clean (some (found.getD "chat")) = some (found.getD "chat") := by
    cases found with
    | none => decide
    | some role =>
      rcases Option.or_eq_some_iff.mp hfound with h | ⟨-, h⟩ <;> exact h ▸ clean_idem _
  rw [hclean]
  rfl

theorem OneOccupant.openTerminal (h : OneOccupant s.rows) (hok : SeatRespected s (.openTerminal session r)) :
    OneOccupant (s.openTerminal clock outside session r).2.rows := by
  unfold TerminalCatalog.openTerminal
  dsimp only
  split
  · exact h
  split
  · exact h
  rename_i hrefusal
  have hboth : ¬(r.taskDocumentRef.isSome = true ∧ r.replacementForTaskDocumentRef.isSome = true) := by
    intro hboth
    rw [taskBindingRefusal, if_pos hboth] at hrefusal
    cases hrefusal
  have hran := running_of_checked s clock outside r session (openedSeatRole (s.rows.get? session) r)
  split
  · rename_i hcheck
    rw [hcheck] at hran
    exact h.mono hran
  · rename_i hcheck
    rw [hcheck] at hran
    exact h.mono hran
  rename_i s' hcheck
  rw [hcheck] at hran
  refine (h.mono hran).write fun hold ref seatRole hholds => ?_
  obtain ⟨-, hnamed, rfl⟩ := hholds
  rw [bindingRole_opened]
  have hsplit : r.held hold = some ref ∨ ∃ e, s.rows.get? session = some e ∧ e.held hold = some ref := by
    cases hold <;> rcases Option.or_eq_some_iff.mp hnamed with hold | ⟨-, hnew⟩
    · exact .inr (Option.bind_eq_some_iff.mp hold)
    · exact .inl hnew
    · exact .inr (Option.bind_eq_some_iff.mp hold)
    · exact .inl hnew
  rcases hsplit with hnew | ⟨e, hrow, hold'⟩
  · exact seatFree_of_checked hcheck hnew hboth
  rcases hok e hrow hold ref hold' with hnew | hfree
  · exact seatFree_of_checked hcheck hnew hboth
  · rw [← hrow] at hfree
    exact hfree.mono hran

theorem oneOccupant_exec (outside : Outside) (s : TerminalCatalog) (k : Command) (h : OneOccupant s.rows)
    (hok : SeatRespected s k) : OneOccupant (exec clock outside s k).2.rows := by
  cases k with
  | get session => exact h
  | list includeTerminated => exact h
  | mutate session m => exact h.mutate hok
  | upsert session copy u =>
    refine h.write fun hold ref seatRole hholds => ?_
    obtain ⟨hr, hnamed, rfl⟩ := hholds
    have hstatus : (u.apply copy).status = copy.status := u.frame copy .status (by cases u <;> rfl)
    exact hok (hstatus.symm.trans hr) hold ref hnamed
  | openTerminal session r => exact h.openTerminal hok
  | compact now => exact h.mono fun _ _ he _ => get?_compact he
  | ask q => exact h

/-! ## Resolving a seat -/

theorem two_listed (h : (rowsListed rows includeTerminated).filter p = a :: b :: rest) :
    a.1 ≠ b.1 ∧ (rows.get? a.1 = some a.2 ∧ p a = true) ∧ (rows.get? b.1 = some b.2 ∧ p b = true) := by
  have hrow : ∀ x ∈ a :: b :: rest, rows.get? x.1 = some x.2 ∧ p x = true := by
    intro x hx
    rw [← h, List.mem_filter] at hx
    exact ⟨Dict.get?_eq_some.mpr (List.mem_filter.mp hx.1).1, hx.2⟩
  have hsub : List.Sublist (a :: b :: rest) rows.entries := h ▸ List.filter_sublist.trans List.filter_sublist
  have hnodup := (hsub.map Prod.fst).nodup rows.nodup
  simp only [List.map_cons, List.nodup_cons, List.mem_cons, not_or] at hnodup
  exact ⟨hnodup.1.1, hrow a (by simp), hrow b (by simp)⟩

theorem OneOccupant.no_two (h : OneOccupant rows) (hp : ∀ e, p e = true → Holds e.2 hold ref seatRole) :
    (rowsListed rows includeTerminated).filter p ≠ a :: b :: rest := by
  intro hfilter
  obtain ⟨hne, ⟨ha, hpa⟩, ⟨hb, hpb⟩⟩ := two_listed hfilter
  exact hne (h b.1 b.2 hb hold ref seatRole (hp b hpb) a.1 a.2 ha (hp a hpa))

theorem activeForTask_resolves (h : OneOccupant rows) (includeTerminated : Bool) (ref : TaskDocumentRef) (seatRole : String) :
    activeForTask (rowsListed rows includeTerminated) ref seatRole ≠ .error () := by
  unfold activeForTask
  split
  · nofun
  · nofun
  · rename_i hfilter
    exact absurd hfilter (h.no_two fun _ => occupies_iff.mp)

theorem currentOccupant_resolves (h : OneOccupant rows) (includeTerminated : Bool) (ref : TaskDocumentRef) (seatRole : String) :
    currentOccupant (rowsListed rows includeTerminated) ref seatRole ≠ .error () := by
  unfold currentOccupant
  split
  · nofun
  · rename_i hfilter
    exact absurd hfilter (h.no_two fun _ => occupies_iff.mp)
  split
  · nofun
  · nofun
  · rename_i hfilter
    exact absurd hfilter (h.no_two fun _ => replaces_iff.mp)

end

/-- In every state of every run whose commands meet the condition, from rows with one occupant a seat, every seat has
one occupant, and no resolution of a seat is ambiguous. -/
def SeatsSingle (c : Config) (rows : Rows) (ok : TerminalCatalog → Command → Prop) : Prop :=
  OneOccupant rows → ∀ w, Reachable (catalogSystem c rows) (Meets c ok) w → OneOccupant w.store.rows ∧
    ∀ includeTerminated ref seatRole, activeForTask (rowsListed w.store.rows includeTerminated) ref seatRole ≠ .error () ∧
      currentOccupant (rowsListed w.store.rows includeTerminated) ref seatRole ≠ .error ()

/-- **One occupant per seat.** -/
theorem seats_single (c : Config) (rows : Rows) : SeatsSingle c rows SeatRespected := by
  intro hrows w hw
  have h : OneOccupant w.store.rows := Pool.steps_keep oneOccupant_exec hw hrows
  exact ⟨h, fun t ref seatRole => ⟨activeForTask_resolves h t ref seatRole, currentOccupant_resolves h t ref seatRole⟩⟩

/-! ## A seat taken back by a sweep -/

def workerSeat : TaskDocumentRef := ⟨"repo", "tasks/plan.md"⟩

def seatedRow (status : TerminalSessionStatus) : TerminalCatalogEntry :=
  { hostedRow with
    status := status
    taskDocumentRef := some workerSeat
    seatRole := some "worker" }

def successorSeated : Rows := (Dict.empty.set "s1" (seatedRow .exited)).set "s2" (seatedRow .running)

theorem oneOccupant_successorSeated : OneOccupant successorSeated := by
  have hrunning : ∀ session e, successorSeated.get? session = some e → e.status = .running → session = "s2" := by
    intro session e he hr
    rw [successorSeated, Dict.get?_set] at he
    split at he
    · rename_i hs
      exact hs.symm
    rw [Dict.get?_set] at he
    split at he
    · cases he
      cases hr
    · cases he
  intro session e he hold ref seatRole hholds other e' he' hholds'
  exact (hrunning other e' he' hholds'.running).trans (hrunning session e he hholds.running).symm

def revivedWorld : World :=
  (runFrom (catalogSystem plainConfig successorSeated) ⟨⟨successorSeated, []⟩, []⟩
    [.start (.sweep false {} ⟨0, some 0⟩), .move 0 fun _ => calm]).get rfl

theorem revivedWorld_reachable :
    Reachable (catalogSystem plainConfig successorSeated) (Meets plainConfig fun _ _ => True) revivedWorld :=
  steps_of_runFrom (fun i _ w => Pool.issues_of_forall (fun _ _ => trivial) w i) (Option.some_get _).symm

/-- A probe that finds an exited row's session alive gives it its seat back, beside the row that has it now. -/
theorem seat_taken_twice : ¬ ∀ c rows, SeatsSingle c rows fun _ _ => True := by
  intro h
  have hsingle := h plainConfig successorSeated oneOccupant_successorSeated revivedWorld revivedWorld_reachable
  exact (hsingle.2 false workerSeat "worker").1 rfl

end AgentsRemember.Catalog
