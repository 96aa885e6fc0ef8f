import AgentsRemember.Observer.Reducer

/-!
# The keys of the workspace projection

Three sources give a lifecycle its id: the first event of a log, an enclosure,
and, where the enclosure names no lifecycle, its repository and task. The
filters keep an enclosure apart from the logs that stand for it, but not two
enclosures from each other, and not a made up id from any other.
-/

namespace AgentsRemember.Observer

open Lib Logs

variable {logs : List (List Event)} {enclosures : List EnclosureNode} {providers : List ProviderNode} {now : Int}

/-- What `diff_projection` and the merge of the client presuppose. -/
structure WorkspaceProjection.KeysDistinct (w : WorkspaceProjection) : Prop where
  lifecycles : (w.lifecycles.map (·.id)).Nodup
  enclosures : (w.enclosures.map (·.enclosure)).Nodup
  providers : (w.providers.map (·.id)).Nodup

def lifecycleIdOf (log : List Event) : String := (log.head?.bind (·.lifecycleId)).getD ""

def currentLifecycle (enclosures : List EnclosureNode) (now : Int) (log : List Event) : Option LifecycleProjection :=
  if log.isEmpty then none else (projectLifecycle log now).filter (eventBackedLifecycleIsCurrent enclosures)

def Unrepresented (logs : List (List Event)) (enclosures : List EnclosureNode) (now : Int) (e : EnclosureNode) : Prop :=
  isUnrepresented (logs.filterMap (currentLifecycle enclosures now)) e = true

/-- The condition on the inputs under which no key is taken twice. -/
structure InputsApart (logs : List (List Event)) (enclosures : List EnclosureNode) (providers : List ProviderNode) (now : Int) :
    Prop where
  recorded : logs.Pairwise fun a b => (currentLifecycle enclosures now a).isSome → (currentLifecycle enclosures now b).isSome →
    lifecycleIdOf a ≠ lifecycleIdOf b
  anchors : enclosures.Pairwise fun a b => a.enclosure ≠ b.enclosure
  served : providers.Pairwise fun a b => a.id ≠ b.id
  unrepresented : enclosures.Pairwise fun a b => Unrepresented logs enclosures now a → Unrepresented logs enclosures now b →
    persistentId a ≠ persistentId b
  fallback : ∀ log ∈ logs, (currentLifecycle enclosures now log).isSome → ∀ e ∈ enclosures, Unrepresented logs enclosures now e →
    e.lifecycleId = "" → lifecycleIdOf log ≠ persistentId e

/-! ## Where an id comes from -/

variable {log : List Event} {p : LifecycleProjection}

theorem projectLifecycle_id (h : projectLifecycle log now = some p) : p.id = lifecycleIdOf log := by
  obtain ⟨q, hq, rfl⟩ := Option.map_eq_some_iff.mp h
  rw [projectInferred_id]
  cases log with
  | nil => cases hq
  | cons e log => exact projectWritten_id hq

theorem currentLifecycle_id (h : currentLifecycle enclosures now log = some p) : p.id = lifecycleIdOf log := by
  unfold currentLifecycle at h
  split at h
  · cases h
  · exact projectLifecycle_id (Option.filter_eq_some_iff.mp h).1

theorem terminalizeAbandonedAnchor_id (p : LifecycleProjection) : (terminalizeAbandonedAnchor enclosures p).id = p.id := by
  unfold terminalizeAbandonedAnchor
  split <;> rfl

theorem terminalizeAbandonedAnchor_enclosure (p : LifecycleProjection) :
    (terminalizeAbandonedAnchor enclosures p).enclosure = p.enclosure := by
  unfold terminalizeAbandonedAnchor
  split <;> rfl

theorem isUnrepresented_terminalized (ps : List LifecycleProjection) (e : EnclosureNode) :
    isUnrepresented (ps.map (terminalizeAbandonedAnchor enclosures)) e = isUnrepresented ps e := by
  unfold isUnrepresented
  simp only [List.any_map, Function.comp_def, terminalizeAbandonedAnchor_id, terminalizeAbandonedAnchor_enclosure]

theorem filter_projected : ∀ {logs : List (List Event)} {ps : List LifecycleProjection},
    ((logs.filter fun log => !log.isEmpty).mapM fun log => projectLifecycle log now) = some ps →
    ps.filter (eventBackedLifecycleIsCurrent enclosures) = logs.filterMap (currentLifecycle enclosures now)
  | [], ps, h => by
    obtain rfl := Option.some.inj h
    rfl
  | log :: logs, ps, h => by
    by_cases hempty : log.isEmpty = true
    · rw [List.filter_cons_of_neg (by simp [hempty])] at h
      have hnone : currentLifecycle enclosures now log = none := by rw [currentLifecycle, if_pos hempty]
      rw [List.filterMap_cons_none hnone]
      exact filter_projected h
    rw [List.filter_cons_of_pos (by simp [hempty]), List.mapM_cons] at h
    obtain ⟨p, hp, h⟩ := Option.bind_eq_some_iff.mp h
    obtain ⟨qs, hqs, h⟩ := Option.bind_eq_some_iff.mp h
    obtain rfl := Option.some.inj h
    have ih := filter_projected hqs
    have hcurrent : currentLifecycle enclosures now log = (some p).filter (eventBackedLifecycleIsCurrent enclosures) := by
      rw [currentLifecycle, if_neg hempty, hp]
    by_cases hc : eventBackedLifecycleIsCurrent enclosures p = true
    · rw [List.filter_cons_of_pos hc, ih, List.filterMap_cons_some (by rw [hcurrent, Option.filter_some_pos hc])]
    · rw [List.filter_cons_of_neg hc, ih, List.filterMap_cons_none (by rw [hcurrent, Option.filter_some_neg (eq_false_of_ne_true hc)])]

theorem projectWorkspace_ids {w : WorkspaceProjection} (h : projectWorkspace logs enclosures providers now = some w) :
    w.lifecycles.map (·.id) = (logs.filter fun log => (currentLifecycle enclosures now log).isSome).map lifecycleIdOf ++
      (enclosures.filter (isUnrepresented (logs.filterMap (currentLifecycle enclosures now)))).map persistentId ∧
    w.enclosures = enclosures ∧ w.providers = providers := by
  obtain ⟨ps, hps, h⟩ := Option.bind_eq_some_iff.mp h
  obtain rfl := Option.some.inj h
  refine ⟨?_, rfl, rfl⟩
  have hids : ∀ logs : List (List Event), (logs.filterMap (currentLifecycle enclosures now)).map (·.id) =
      (logs.filter fun log => (currentLifecycle enclosures now log).isSome).map lifecycleIdOf := by
    intro logs
    induction logs with
    | nil => rfl
    | cons log logs ih =>
      cases hc : currentLifecycle enclosures now log with
      | none => rw [List.filterMap_cons_none hc, List.filter_cons_of_neg (by simp [hc]), ih]
      | some p =>
        rw [List.filterMap_cons_some hc, List.filter_cons_of_pos (by simp [hc]), List.map_cons, List.map_cons, ih,
          currentLifecycle_id hc]
  have hterm : (((logs.filterMap (currentLifecycle enclosures now)).map (terminalizeAbandonedAnchor enclosures)).map (·.id)) =
      (logs.filterMap (currentLifecycle enclosures now)).map (·.id) := by
    rw [List.map_map]
    exact List.map_congr_left fun p _ => terminalizeAbandonedAnchor_id p
  have hmade : (persistentLifecycles enclosures
      ((logs.filterMap (currentLifecycle enclosures now)).map (terminalizeAbandonedAnchor enclosures))).map (·.id) =
      (enclosures.filter (isUnrepresented (logs.filterMap (currentLifecycle enclosures now)))).map persistentId := by
    rw [persistentLifecycles, List.map_map, funext (isUnrepresented_terminalized _)]
    rfl
  dsimp only
  rw [filter_projected hps, List.map_append, hterm, hmade, hids]

theorem named_apart {e : EnclosureNode} (he : Unrepresented logs enclosures now e) (hid : e.lifecycleId ≠ "")
    (hlog : log ∈ logs) (hc : (currentLifecycle enclosures now log).isSome) : lifecycleIdOf log ≠ persistentId e := by
  obtain ⟨p, hp⟩ := Option.isSome_iff_exists.mp hc
  have hmem : p ∈ logs.filterMap (currentLifecycle enclosures now) := List.mem_filterMap.mpr ⟨log, hlog, hp⟩
  unfold Unrepresented isUnrepresented at he
  simp only [Bool.and_eq_true, Bool.not_eq_true', Bool.and_eq_false_iff] at he
  have hany : ((logs.filterMap (currentLifecycle enclosures now)).any fun p => decide (p.id = e.lifecycleId)) = false := by
    rcases he.1.1 with h | h
    · simp [hid] at h
    · exact h
  rw [persistentId, if_pos hid, ← currentLifecycle_id hp]
  simpa using List.any_eq_false.mp hany p hmem

/-- **The keys are distinct exactly when the inputs are apart.** -/
theorem keys_distinct_iff {w : WorkspaceProjection} (h : projectWorkspace logs enclosures providers now = some w) :
    w.KeysDistinct ↔ InputsApart logs enclosures providers now := by
  obtain ⟨hids, hencl, hprov⟩ := projectWorkspace_ids h
  have hlifecycles : (w.lifecycles.map (·.id)).Nodup ↔
      (logs.Pairwise fun a b => (currentLifecycle enclosures now a).isSome → (currentLifecycle enclosures now b).isSome →
        lifecycleIdOf a ≠ lifecycleIdOf b) ∧
      (enclosures.Pairwise fun a b => Unrepresented logs enclosures now a → Unrepresented logs enclosures now b →
        persistentId a ≠ persistentId b) ∧
      ∀ log ∈ logs, (currentLifecycle enclosures now log).isSome → ∀ e ∈ enclosures, Unrepresented logs enclosures now e →
        lifecycleIdOf log ≠ persistentId e := by
    rw [hids, List.nodup_append, List.nodup_iff_pairwise_ne, List.nodup_iff_pairwise_ne, List.pairwise_map, List.pairwise_map,
      List.pairwise_filter, List.pairwise_filter]
    refine and_congr Iff.rfl (and_congr Iff.rfl ⟨fun hne log hlog hc e he hu => ?_, fun hne x hx y hy => ?_⟩)
    · exact hne _ (List.mem_map_of_mem (List.mem_filter.mpr ⟨hlog, hc⟩)) _ (List.mem_map_of_mem (List.mem_filter.mpr ⟨he, hu⟩))
    obtain ⟨log, hlog, rfl⟩ := List.mem_map.mp hx
    obtain ⟨e, he, rfl⟩ := List.mem_map.mp hy
    exact hne log (List.mem_filter.mp hlog).1 (List.mem_filter.mp hlog).2 e (List.mem_filter.mp he).1 (List.mem_filter.mp he).2
  have hpair : ∀ {α : Type} (f : α → String) (l : List α), (l.map f).Nodup ↔ l.Pairwise fun a b => f a ≠ f b := by
    intro α f l
    rw [List.nodup_iff_pairwise_ne, List.pairwise_map]
  constructor
  · rintro ⟨h1, h2, h3⟩
    rw [hencl, hpair] at h2
    rw [hprov, hpair] at h3
    obtain ⟨hlogs, hown, hacross⟩ := hlifecycles.mp h1
    exact ⟨hlogs, h2, h3, hown, fun log hlog hc e he hu _ => hacross log hlog hc e he hu⟩
  rintro ⟨hlogs, h2, h3, hown, hfallback⟩
  refine ⟨hlifecycles.mpr ⟨hlogs, hown, fun log hlog hc e he hu => ?_⟩, by rw [hencl, hpair]; exact h2, by rw [hprov, hpair]; exact h3⟩
  by_cases hid : e.lifecycleId = ""
  · exact hfallback log hlog hc e he hu hid
  · exact named_apart hu hid hlog hc

/-! ## Two leaves of a task -/

def leafEnclosure (leaf lifecycleId : String) : EnclosureNode where
  enclosure := "tasks/search/enclosures/" ++ leaf ++ "/series-contract.md"
  taskName := "search"
  repoName := "app"
  lifecycleId := lifecycleId
  closeoutStatus := "not-started"
  integrationStatus := "not-started"
  cleanup := "pending"

def startedLog (lifecycleId : String) : List Event :=
  [{ schemaVersion := observerEventSchema, id := "e1", ts := "", kind := "lifecycle.started", trust := .declared, actor := .model,
     data := [("fleeting", .scalar (.bool true))], lifecycleId := some lifecycleId, enclosure := none, repoId := none,
     sessionId := none, spanId := none }]

/-- One log and two leaves, of which one has no lifecycle id. -/
theorem keys_distinct_leaves : ∃ w, projectWorkspace [startedLog "lc-1"] [leafEnclosure "L1" "lc-2", leafEnclosure "L2" ""] [] 0 = some w ∧
    (w.KeysDistinct ↔ InputsApart [startedLog "lc-1"] [leafEnclosure "L1" "lc-2", leafEnclosure "L2" ""] [] 0) :=
  ⟨_, rfl, keys_distinct_iff rfl⟩

/-- Two leaves of one task whose contracts name no lifecycle are projected under one id. -/
theorem legacy_leaves_share_id : ∃ w, projectWorkspace [] [leafEnclosure "L1" "", leafEnclosure "L2" ""] [] 0 = some w ∧
    ¬ w.KeysDistinct := by
  refine ⟨_, rfl, fun h => ?_⟩
  have hids := h.lifecycles
  revert hids
  decide

end AgentsRemember.Observer
