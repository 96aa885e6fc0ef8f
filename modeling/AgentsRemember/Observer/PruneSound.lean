import AgentsRemember.Logs.TornSound
import AgentsRemember.Observer.Retention

/-!
# The entries of an event log

What retention reads of the lines that the event store has appended: the events
themselves, in their order.
-/

namespace AgentsRemember.Observer

open Lib Lib.JsonText Lib.Lines Logs

theorem entryOf_eventLine (e : Event) (after : Nat) : ((entryOf (Utf8.encode (eventLine e), after)).map (·.payload)) = some e.dump := by
  have hloads : loads (eventLine e) = some (.obj e.dump) := loads_dumps compact _
  simp [entryOf, Utf8.decode_encode, hloads, asObject]

theorem split_logText (rows : List Event) : split isNewlineByte (Utf8.encode (logText eventModel rows)) =
    (rows.map fun e => Utf8.encode (eventLine e)) ++ [[]] := by
  have h := @split_unlines_append _ isNewlineByte 10 (by decide) (rows.map fun e => Utf8.encode (eventLine e)) []
    (fun line hline => by
      obtain ⟨e, -, rfl⟩ := List.mem_map.mp hline
      exact newline_byte (newline_not_mem e)) (by simp)
  rwa [List.append_nil, ← encode_logText] at h

theorem payloads_logText (rows : List Event) :
    (iterEventPayloads (Utf8.encode (logText eventModel rows))).map (·.payload) = rows.map Event.dump := by
  have hfst := lineOffsets_fst 0 (rows.map fun e => Utf8.encode (eventLine e)) []
  rw [← split_logText] at hfst
  have hread : ∀ (lines : List (Bytes × Nat)) (rows : List Event), lines.map Prod.fst = rows.map (fun e => Utf8.encode (eventLine e)) →
      (lines.filterMap entryOf).map (·.payload) = rows.map Event.dump := by
    intro lines
    induction lines with
    | nil =>
      intro rows h
      cases rows with
      | nil => rfl
      | cons e rows => cases h
    | cons line lines ih =>
      intro rows h
      cases rows with
      | nil => cases h
      | cons e rows =>
        obtain ⟨hline, hlines⟩ := List.cons.inj h
        obtain ⟨bytes, after⟩ := line
        obtain rfl : bytes = Utf8.encode (eventLine e) := hline
        obtain ⟨entry, hentry, hpayload⟩ := Option.map_eq_some_iff.mp (entryOf_eventLine e after)
        rw [List.filterMap_cons_some hentry, List.map_cons, List.map_cons, ih rows hlines, hpayload]
  exact hread _ rows hfst

/-! ## Logs of live series

A call removes a log of a live series exactly when it takes no account of the
series, or of an older state of it, while the log is dormant. A tick that has
just read the contracts never does.
-/

open Lib Logs

def Removes (w : World) (a : Action) (id : String) : Prop := (w.dirs id).isSome ∧ (w.step a).dirs id = none

/-- No step of a run removes a lifecycle that its series retains at that moment. -/
def NeverLost : World → List Action → Prop
  | _, [] => True
  | w, a :: as => (∀ now ∈ a.moment, ∀ id, Removes w a id → id ∉ w.retained now) ∧ NeverLost (w.step a) as

/-- The condition on a call: what of the retained logs must not be dormant. -/
def Safe (w : World) : Action → Prop
  | .write .. | .contracts .. => True
  | .connect entries now | .tailTick entries now => ∀ id ∈ entries, id ∈ w.retained now → w.isDormant now id = false
  | .projectionTick refreshesTasks reads entries now =>
    refreshesTasks = true ∨ reads = false ∨ ∀ seen ∈ w.snapshot, ∀ id ∈ entries,
      id ∈ w.retained now → id ∈ seriesRetainedLifecycleIds w.mtime now seen ∨ w.isDormant now id = false
  | .sessionStart keep ttl entries now => ∀ id ∈ entries,
    id ∈ w.retained now → keep = some id ∨ w.isDormantFleeting ttl now id = false ∨ w.dirs id = none

def AllSafe : World → List Action → Prop
  | _, [] => True
  | w, a :: as => Safe w a ∧ AllSafe (w.step a) as

section
variable {w : World} {entries : List String} {now : Int}

theorem dirs_remove (p : String → Bool) (id : String) :
    ((w.dirs id).isSome ∧ (w.remove p entries).dirs id = none) ↔ (w.dirs id).isSome ∧ id ∈ entries ∧ p id = true := by
  unfold World.remove
  dsimp only
  by_cases h : id ∈ entries ∧ p id = true
  · simp [h]
  · rw [if_neg h]
    cases w.dirs id <;> simp [h]

theorem isDormant_dirs {id : String} (h : w.isDormant now id = true) : (w.dirs id).isSome := by
  unfold World.isDormant at h
  cases hd : w.dirs id with
  | none => simp [hd] at h
  | some dir => rfl

theorem removes_prune {v : World} (hdirs : v.dirs = w.dirs) (protectedIds : List String) (id : String) :
    ((w.dirs id).isSome ∧ (v.prune protectedIds entries now).dirs id = none) ↔
      id ∈ entries ∧ id ∉ protectedIds ∧ w.isDormant now id = true := by
  have hdormant : v.isDormant now id = w.isDormant now id := by unfold World.isDormant; rw [hdirs]
  have hremove : ((v.dirs id).isSome ∧ (v.remove (fun id => !protectedIds.contains id && v.isDormant now id) entries).dirs id = none) ↔
      (v.dirs id).isSome ∧ id ∈ entries ∧ (!protectedIds.contains id && v.isDormant now id) = true :=
    dirs_remove (fun id => !protectedIds.contains id && v.isDormant now id) id
  rw [hdirs] at hremove
  rw [World.prune, hremove]
  simp only [Bool.and_eq_true, Bool.not_eq_true', List.contains_eq_mem, decide_eq_false_iff_not, hdormant]
  exact ⟨fun h => h.2, fun h => ⟨isDormant_dirs h.2.2, h⟩⟩

theorem removes_unprotected (id : String) : ((w.dirs id).isSome ∧ (w.prune [] entries now).dirs id = none) ↔
    id ∈ entries ∧ w.isDormant now id = true := by
  rw [removes_prune rfl]
  simp

end

/-! ## One call -/

theorem safe_iff (w : World) (a : Action) : (∀ now ∈ a.moment, ∀ id, Removes w a id → id ∉ w.retained now) ↔ Safe w a := by
  have hunprotected : ∀ (entries : List String) (now : Int),
      (∀ id, (w.dirs id).isSome ∧ (w.prune [] entries now).dirs id = none → id ∉ w.retained now) ↔
        ∀ id ∈ entries, id ∈ w.retained now → w.isDormant now id = false := by
    intro entries now
    constructor
    · intro h id hid hret
      by_contra hd
      exact h id ((removes_unprotected id).mpr ⟨hid, eq_true_of_ne_false hd⟩) hret
    intro h id hr hret
    obtain ⟨hid, hd⟩ := (removes_unprotected id).mp hr
    rw [h id hid hret] at hd
    cases hd
  cases a with
  | write id dir => simp [Action.moment, Safe]
  | contracts enclosures mtime => simp [Action.moment, Safe]
  | connect entries now => simpa [Action.moment, Safe, Removes, World.step] using hunprotected entries now
  | tailTick entries now => simpa [Action.moment, Safe, Removes, World.step] using hunprotected entries now
  | projectionTick refreshesTasks reads entries now =>
    simp only [Action.moment, Option.mem_def, Option.some.injEq, forall_eq', Safe, Removes, World.step]
    by_cases hfresh : refreshesTasks = true ∨ w.snapshot = none
    · -- The contracts were just read, so the protected set is the retained one.
      have hseen : w.refreshTasks refreshesTasks = { w with snapshot := some w.enclosures } := by
        unfold World.refreshTasks
        rw [if_pos]
        rcases hfresh with h | h <;> simp [h]
      have hsafe : refreshesTasks = true ∨ reads = false ∨ ∀ seen ∈ w.snapshot, ∀ id ∈ entries, id ∈ w.retained now →
          id ∈ seriesRetainedLifecycleIds w.mtime now seen ∨ w.isDormant now id = false := by
        rcases hfresh with h | h
        · exact .inl h
        · exact .inr (.inr fun seen hs => by rw [h] at hs; cases hs)
      refine iff_of_true (fun id hr hret => ?_) hsafe
      rw [if_pos (by rcases hfresh with h | h <;> simp [h]), hseen] at hr
      exact ((removes_prune rfl _ id).mp hr).2.1 hret
    · obtain ⟨htasks, hsnapshot⟩ := not_or.mp hfresh
      obtain ⟨seen, hseen⟩ := Option.ne_none_iff_exists'.mp hsnapshot
      have hsame : w.refreshTasks refreshesTasks = w := by
        unfold World.refreshTasks
        rw [if_neg]
        simp [htasks, hseen]
      rw [hsame]
      cases reads with
      | false =>
        refine iff_of_true (fun id hr => ?_) (.inr (.inl rfl))
        rw [if_neg (by simp [htasks, hseen])] at hr
        obtain ⟨hs, hn⟩ := hr
        rw [hn] at hs
        cases hs
      | true =>
        rw [if_pos (by simp)]
        simp only [hseen, Option.getD_some, Option.some.injEq, forall_eq', Bool.true_eq_false, false_or]
        constructor
        · intro h
          refine .inr fun id hid hret => ?_
          by_contra hno
          obtain ⟨hnot, hd⟩ := not_or.mp hno
          exact h id ((removes_prune rfl _ id).mpr ⟨hid, hnot, eq_true_of_ne_false hd⟩) hret
        intro h id hr hret
        obtain ⟨hid, hnot, hd⟩ := (removes_prune rfl _ id).mp hr
        rcases h.resolve_left htasks id hid hret with hin | hquiet
        · exact hnot hin
        · rw [hquiet] at hd
          cases hd
  | sessionStart keep ttl entries now =>
    simp only [Action.moment, Option.mem_def, Option.some.injEq, forall_eq', Safe, Removes, World.step]
    constructor
    · intro h id hid hret
      by_contra hno
      obtain ⟨hkeep, hno⟩ := not_or.mp hno
      obtain ⟨hd, hdir⟩ := not_or.mp hno
      have hsome : (w.dirs id).isSome := Option.isSome_iff_ne_none.mpr hdir
      refine h id ((dirs_remove _ id).mpr ⟨hsome, hid, ?_⟩) hret
      rw [eq_true_of_ne_false hd, Bool.and_true]
      exact decide_eq_true hkeep
    intro h id hr hret
    obtain ⟨hsome, hid, hp⟩ := (dirs_remove _ id).mp hr
    rw [Bool.and_eq_true, decide_eq_true_eq] at hp
    rcases h id hid hret with hk | hd | hn
    · exact hp.1 hk
    · rw [hd] at hp
      cases hp.2
    · rw [hn] at hsome
      cases hsome

/-- **A run loses no log of a live series exactly when every call in it is safe.** -/
theorem live_series_keeps_logs : ∀ (w : World) (as : List Action), NeverLost w as ↔ AllSafe w as
  | _, [] => Iff.rfl
  | w, a :: as => and_congr (safe_iff w a) (live_series_keeps_logs (w.step a) as)

/-! ## A running leaf that has been quiet for two hours -/

def promotedEvent : Event where
  schemaVersion := observerEventSchema
  id := "e2"
  ts := "2026-01-01T00:00:00+00:00"
  kind := "lifecycle.promoted"
  trust := .observed
  actor := .system
  data := []
  lifecycleId := some "lc-1"
  enclosure := some "tasks/search/enclosures/L1/series-contract.md"
  repoId := some "app"
  sessionId := none
  spanId := none

def runningLeaf : EnclosureNode where
  enclosure := "tasks/search/enclosures/L1/series-contract.md"
  taskName := "search"
  repoName := "app"
  lifecycleId := "lc-1"
  closeoutStatus := "not-started"
  integrationStatus := "not-started"
  cleanup := "pending"

def quietWorld : World where
  dirs id := if id = "lc-1" then some ⟨some (Utf8.encode (logText eventModel [promotedEvent])), none⟩ else none
  enclosures := [runningLeaf]
  mtime _ := none
  snapshot := some [runningLeaf]

def twoHoursLater : Int := 1767225600000000 + seconds 7200

/-- A dashboard that connects removes the log of a leaf whose series is live. -/
theorem connect_loses_running_leaf : ¬ NeverLost quietWorld [.connect ["lc-1"] twoHoursLater] := by
  intro h
  have hdormant : quietWorld.isDormant twoHoursLater "lc-1" = true := by
    have hdir : quietWorld.dirs "lc-1" = some ⟨some (Utf8.encode (logText eventModel [promotedEvent])), none⟩ := by
      simp [quietWorld]
    rw [World.isDormant, hdir, Option.bind_some, Option.any_some, payloads_logText]
    decide +kernel
  refine h.1 twoHoursLater rfl "lc-1" ⟨?_, ?_⟩ (by decide)
  · exact isDormant_dirs hdormant
  · exact ((removes_unprotected "lc-1").mpr ⟨by decide, hdormant⟩).2

end AgentsRemember.Observer
