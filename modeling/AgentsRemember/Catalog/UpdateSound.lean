import AgentsRemember.Catalog.Writers

/-!
# What the catalog keeps of its writers' updates

Every column of a row is as the last writer that set it left it, in every run
whose upserts find the row as their copies have it outside the columns they set.
A writer that upserts an older copy takes the other columns back.
-/

namespace AgentsRemember.Catalog

open Lib

variable {c : Config} {s t : TerminalCatalog}

namespace TerminalCatalog

def lastSetting (s : TerminalCatalog) (session : String) (col : Column) : Option Commit :=
  s.log.find? fun k => decide (k.session = session) && k.sets col

def NoLostUpdate (s : TerminalCatalog) : Prop :=
  ∀ session row, s.rows.get? session = some row → ∀ col k, s.lastSetting session col = some k → col.read row = col.read k.row

theorem lastSetting_write (s : TerminalCatalog) (session other : String) (row : TerminalCatalogEntry) (sets : Column → Bool)
    (col : Column) : (s.write session row sets).lastSetting other col =
      if session = other ∧ sets col = true then some ⟨session, sets, row⟩ else s.lastSetting other col := by
  unfold lastSetting write
  rw [List.find?_cons]
  by_cases h : session = other ∧ sets col = true
  · simp [h]
  rw [if_neg h]
  have : (decide (session = other) && sets col) = false := by simpa using h
  simp only [this]

variable {session : String} {clock : Clock}

theorem NoLostUpdate.write (h : s.NoLostUpdate) {row : TerminalCatalogEntry} {sets : Column → Bool}
    (hkept : ∀ col, sets col = false → ∃ old, s.rows.get? session = some old ∧ col.read row = col.read old) :
    (s.write session row sets).NoLostUpdate := by
  intro other e he col k hk
  rw [lastSetting_write] at hk
  split at hk
  · rename_i hset
    obtain ⟨rfl, -⟩ := hset
    cases hk
    rw [TerminalCatalog.write, Dict.get?_set_self] at he
    cases he
    rfl
  rename_i hset
  by_cases hs : session = other
  · subst hs
    obtain ⟨old, hold, hread⟩ := hkept col (by simpa using hset)
    rw [TerminalCatalog.write, Dict.get?_set_self] at he
    cases he
    rw [hread]
    exact h session old hold col k hk
  · rw [TerminalCatalog.write, Dict.get?_set_ne _ _ hs] at he
    exact h other e he col k hk

theorem NoLostUpdate.mutate (h : s.NoLostUpdate) {m : Mutation} : (s.mutate clock session m).2.NoLostUpdate := by
  unfold TerminalCatalog.mutate
  cases hrow : s.rows.get? session with
  | none => exact h
  | some e =>
    cases he : m.apply clock e with
    | none => simpa only [he] using h
    | some e' =>
      simp only [he]
      exact h.write fun col hcol => ⟨e, hrow, m.frame col he hcol⟩

theorem NoLostUpdate.openTerminal (h : s.NoLostUpdate) {outside : Outside} {r : OpenRequest} :
    (s.openTerminal clock outside session r).2.NoLostUpdate :=
  openTerminal_keeps (fun _ _ h => h.mutate) (fun _ _ _ h => h.write fun _ hcol => nomatch hcol) h

theorem NoLostUpdate.compact (h : s.NoLostUpdate) {now : Int} : (s.compact clock now).NoLostUpdate :=
  fun session row hrow => h session row (get?_compact hrow)

end TerminalCatalog

open TerminalCatalog

/-- The row still agrees with the copy that is upserted, in every column that the upsert does not set. -/
def CopyCurrent (s : TerminalCatalog) : Command → Prop
  | .upsert session copy u =>
    ∃ row, s.rows.get? session = some row ∧ ∀ col, u.sets copy col = false → col.read copy = col.read row
  | _ => True

theorem noLostUpdate_exec {clock : Clock} (outside : Outside) (s : TerminalCatalog) (k : Command) (h : s.NoLostUpdate)
    (hok : CopyCurrent s k) : (exec clock outside s k).2.NoLostUpdate := by
  cases k with
  | get session => exact h
  | list includeTerminated => exact h
  | mutate session m => exact h.mutate
  | upsert session copy u =>
    obtain ⟨row, hrow, hcurrent⟩ := hok
    exact h.write fun col hcol => ⟨row, hrow, (u.frame copy col hcol).trans (hcurrent col hcol)⟩
  | openTerminal session r => exact h.openTerminal
  | compact now => exact h.compact
  | ask q => exact h

/-- In every state of every run of the server processes whose commands meet the condition, no update is lost. -/
def UpdatesKept (c : Config) (rows : Rows) (ok : TerminalCatalog → Command → Prop) : Prop :=
  ∀ w, Reachable (catalogSystem c rows) (Meets c ok) w → w.store.NoLostUpdate

/-- **No lost update.** A run loses no update when every upsert finds its copy current outside the columns it sets. -/
theorem updates_kept_of_current (c : Config) (rows : Rows) : UpdatesKept c rows CopyCurrent := by
  intro w h
  refine Pool.steps_keep noLostUpdate_exec h ?_
  intro session row _ col k hk
  cases hk

/-! ## A label taken back -/

def plainConfig : Config where
  clock := pythonClock

def hostedRow : TerminalCatalogEntry where
  kind := .harness
  harness := some "claude"
  cwd := "/work"
  tmuxName := "ar-s1"
  createdAt := "2026-01-01T00:00:00+00:00"
  label := "worker"
  lastAttachedAt := "2026-01-01T00:00:00+00:00"
  status := .running

def oneHosted : Rows := Dict.empty.set "s1" hostedRow

/-- Every session lives, every bridge reads, and every request is granted. -/
def calm : Outside
  | .probe _ _ => none
  | .pane _ => "idle"
  | .snapshot _ => .error "unread"
  | .terminalEvidence _ _ => .failed
  | .synchronize _ => none
  | .hasSession _ => true
  | .admits _ _ => true
  | .stopControl _ => none
  | .retireAllowed _ => true

def markedOverRename : List (PoolAction Call Outside) :=
  [.start (.stateSignal "s1" "evidence:7"), .start (.rename "s1" "worker 2"), .move 0 fun _ => calm, .move 1 fun _ => calm,
    .move 1 fun _ => calm, .move 0 fun _ => calm]

def renameLost : World := (runFrom (catalogSystem plainConfig oneHosted) ⟨⟨oneHosted, []⟩, []⟩ markedOverRename).get rfl

theorem renameLost_reachable :
    Reachable (catalogSystem plainConfig oneHosted) (Meets plainConfig fun _ _ => True) renameLost :=
  steps_of_runFrom (fun i _ w => Pool.issues_of_forall (fun _ _ => trivial) w i) (Option.some_get _).symm

/-- A marker of the notifier takes back a rename made since the notifier read the row. -/
theorem rename_taken_back : ¬ ∀ c rows, UpdatesKept c rows fun _ _ => True := by
  intro h
  have hkept : (hostedRow.label, hostedRow.spawnedLabel) = ("worker 2", some "worker") :=
    h plainConfig oneHosted renameLost renameLost_reachable "s1"
      { hostedRow with stateSignalEmittedFor := some "evidence:7" } rfl .label ⟨"s1", _, _⟩ rfl
  exact absurd hkept (by decide)

end AgentsRemember.Catalog

/-! ## Terminal rows of the catalog

A terminated row stays terminated, with its stamps, until it is reclaimed, and
a reclaimed row stays away until its session is opened anew. That holds of the
runs whose upserts write a copy as terminal as the row they find, and whose
attaches find no terminated row.
-/

namespace AgentsRemember.Catalog

open Lib

variable {c : Config} {s : TerminalCatalog} {session : String} {e e' : TerminalCatalogEntry}

structure KeepsTerminal (e e' : TerminalCatalogEntry) : Prop where
  terminated : e'.status = .terminated
  retirement : e'.retirement = e.retirement
  stamped : e.terminatedAt.isSome = true → e'.terminatedAt.isSome = true

def Command.opens (session : String) : Command → Bool
  | .openTerminal other _ => other = session
  | _ => false

/-- An upsert finds its row, and its copy is as terminal as that; an attach finds no terminated row. -/
def TerminalRespected (s : TerminalCatalog) : Command → Prop
  | .upsert session copy _ => ∃ e, s.rows.get? session = some e ∧ (e.status = .terminated → KeepsTerminal e copy)
  | .mutate session (.attached _) => ∀ e, s.rows.get? session = some e → e.status ≠ .terminated
  | _ => True

theorem KeepsTerminal.refl (h : e.status = .terminated) : KeepsTerminal e e := ⟨h, rfl, id⟩

theorem KeepsTerminal.trans {e'' : TerminalCatalogEntry} (h : KeepsTerminal e e') (h' : KeepsTerminal e' e'') :
    KeepsTerminal e e'' := ⟨h'.terminated, h'.retirement.trans h.retirement, fun hs => h'.stamped (h.stamped hs)⟩

theorem KeepsTerminal.update (h : KeepsTerminal e e') (u : Update) : KeepsTerminal e (u.apply e') := by
  have hstatus : (u.apply e').status = e'.status := u.frame e' .status (by cases u <;> rfl)
  have hretirement : (u.apply e').retirement = e'.retirement := u.frame e' .retirement (by cases u <;> rfl)
  have hstamp : (u.apply e').terminatedAt = e'.terminatedAt := u.frame e' .terminatedAt (by cases u <;> rfl)
  exact ⟨hstatus.trans h.terminated, hretirement.trans h.retirement, fun hs => hstamp ▸ h.stamped hs⟩

variable {clock : Clock} {m : Mutation} {other : String}

theorem KeepsTerminal.mutate (ht : e.status = .terminated) (h : m.apply clock e = some e')
    (hm : ∀ at', m ≠ .attached at') : KeepsTerminal e e' := by
  cases m with
  | attached attachedAt => exact absurd rfl (hm attachedAt)
  | exited =>
    cases h
    rw [if_pos (.inr ht)]
    exact .refl ht
  | livenessProbe evidence checkedAt hysteresis =>
    cases evidence with
    | none =>
      cases h
      rw [TerminalCatalogEntry.withLivenessSuccess, if_pos ht]
      exact .refl ht
    | some evidence =>
      simp only [Mutation.apply, TerminalCatalogEntry.withLivenessFailure, ht] at h
      cases h
      exact .refl ht
  | terminated terminatedAt =>
    cases h
    exact ⟨rfl, rfl, fun _ => rfl⟩
  | retired closure =>
    cases h
    rw [TerminalCatalogEntry.withRetirement, if_pos ht]
    exact .refl ht
  | landed closure =>
    cases h
    rw [TerminalCatalogEntry.withLanding, if_pos (.inl ht)]
    exact .refl ht
  | label text =>
    cases h
    exact ⟨ht, rfl, id⟩
  | sessionLog entryId path =>
    cases h
    exact ⟨ht, rfl, id⟩
  | turnState state changedAt =>
    cases h
    unfold TerminalCatalogEntry.withTurnState
    split
    · exact .refl ht
    · exact ⟨ht, rfl, id⟩

/-! ## One command -/

def StaysTerminal (session : String) (e : TerminalCatalogEntry) (s : TerminalCatalog) : Prop :=
  ∀ e', s.rows.get? session = some e' → KeepsTerminal e e'

def Absent (session : String) (s : TerminalCatalog) : Prop := s.rows.get? session = none

theorem StaysTerminal.mutate (h : StaysTerminal session e s)
    (hm : other = session → ∀ e', s.rows.get? session = some e' → ∀ at', m ≠ .attached at') :
    StaysTerminal session e (s.mutate clock other m).2 := by
  intro e'' he''
  rcases get?_mutate_cases he'' with hsame | ⟨hs, e', hrow, happly⟩
  · exact h e'' hsame
  · exact (h e' hrow).trans (.mutate (h e' hrow).terminated happly (hm hs e' hrow))

theorem Absent.mutate (h : Absent session s) : Absent session (s.mutate clock other m).2 := by
  by_cases hs : other = session
  · subst hs
    unfold TerminalCatalog.mutate
    rw [show s.rows.get? other = none from h]
    exact h
  · exact (get?_mutate_ne hs).trans h

theorem staysTerminal_exec (outside : Outside) (s : TerminalCatalog) (k : Command) (h : StaysTerminal session e s)
    (hok : TerminalRespected s k ∧ k.opens session = false) : StaysTerminal session e (exec clock outside s k).2 := by
  cases k with
  | get other => exact h
  | list includeTerminated => exact h
  | mutate other m =>
    refine h.mutate ?_
    rintro rfl e' hrow at' rfl
    exact hok.1 e' hrow (h e' hrow).terminated
  | upsert other copy u =>
    obtain ⟨row, hrow, hcopy⟩ := hok.1
    intro e' he'
    by_cases hs : other = session
    · subst hs
      rw [exec, TerminalCatalog.write, Dict.get?_set_self] at he'
      cases he'
      have hrow' := h row hrow
      exact hrow'.trans ((hcopy hrow'.terminated).update u)
    · rw [exec, TerminalCatalog.write, Dict.get?_set_ne _ _ hs] at he'
      exact h e' he'
  | openTerminal other r =>
    have hother : other ≠ session := fun hs => by simp [Command.opens, hs] at hok
    refine openTerminal_keeps (fun s owner h => h.mutate fun _ _ _ _ => by simp) (fun s existing seatRole h e' he' => ?_) h
    exact h e' ((Dict.get?_set_ne _ _ hother).symm.trans he')
  | compact now => exact fun e' he' => h e' (get?_compact he')
  | ask q => exact h

theorem absent_exec (outside : Outside) (s : TerminalCatalog) (k : Command) (h : Absent session s)
    (hok : TerminalRespected s k ∧ k.opens session = false) : Absent session (exec clock outside s k).2 := by
  cases k with
  | get other => exact h
  | list includeTerminated => exact h
  | mutate other m => exact h.mutate
  | upsert other copy u =>
    obtain ⟨row, hrow, -⟩ := hok.1
    have hother : other ≠ session := by
      rintro rfl
      rw [show s.rows.get? other = none from h] at hrow
      cases hrow
    exact (Dict.get?_set_ne _ _ hother).trans h
  | openTerminal other r =>
    have hother : other ≠ session := fun hs => by simp [Command.opens, hs] at hok
    exact openTerminal_keeps (fun s owner h => h.mutate) (fun _ _ _ h => (Dict.get?_set_ne _ _ hother).trans h) h
  | compact now =>
    cases hrow : (s.compact clock now).rows.get? session with
    | none => exact hrow
    | some e' => exact absurd (get?_compact hrow) (by rw [show s.rows.get? session = none from h]; nofun)
  | ask q => exact h

/-- In every run whose commands meet the condition, a terminated row stays as it ended until it is reclaimed, and then its
session has no row, until it is opened anew. -/
def TerminalStays (c : Config) (rows : Rows) (ok : TerminalCatalog → Command → Prop) : Prop :=
  ∀ w session e, Reachable (catalogSystem c rows) (Meets c ok) w → w.store.rows.get? session = some e →
    e.status = .terminated → ∀ v, Steps (catalogSystem c rows) (Meets c fun s k => ok s k ∧ k.opens session = false) w v →
      (∀ e', v.store.rows.get? session = some e' → KeepsTerminal e e') ∧
      (v.store.rows.get? session = none →
        ∀ u, Steps (catalogSystem c rows) (Meets c fun s k => ok s k ∧ k.opens session = false) v u →
          u.store.rows.get? session = none)

/-- **Terminal rows stay terminal.** -/
theorem terminal_rows_stay (c : Config) (rows : Rows) : TerminalStays c rows TerminalRespected := by
  intro w session e _ hrow hterminated v hv
  constructor
  · have hstays : StaysTerminal session e v.store := by
      refine Pool.steps_keep staysTerminal_exec hv fun e' he' => ?_
      rw [hrow] at he'
      cases he'
      exact .refl hterminated
    exact hstays
  · intro hnone u hu
    exact Pool.steps_keep absent_exec hu hnone

/-! ## An interrupt's provenance over a termination -/

def terminatedWorld : World :=
  (runFrom (catalogSystem plainConfig oneHosted) ⟨⟨oneHosted, []⟩, []⟩
    [.start (.interruptRequest "s1" "2026-01-02T00:00:00+00:00" "turn-3"),
      .start (.terminate "s1" "2026-01-02T00:00:01+00:00"), .move 0 fun _ => calm, .move 1 fun _ => calm,
      .move 1 fun _ => calm]).get rfl

theorem terminatedWorld_reachable :
    Reachable (catalogSystem plainConfig oneHosted) (Meets plainConfig fun _ _ => True) terminatedWorld :=
  steps_of_runFrom (fun i _ w => Pool.issues_of_forall (fun _ _ => trivial) w i) (Option.some_get _).symm

/-- A writer that read the row before its termination upserts it running. -/
theorem terminated_row_revived : ¬ ∀ c rows, TerminalStays c rows fun _ _ => True := by
  intro h
  have hstays := h plainConfig oneHosted terminatedWorld "s1" _ terminatedWorld_reachable rfl rfl _
    (.tail (i := .move 0 fun _ => calm) .refl ⟨trivial, rfl⟩ rfl)
  exact nomatch (hstays.1 _ rfl).terminated

end AgentsRemember.Catalog
