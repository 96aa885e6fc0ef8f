import Mathlib.Data.List.Induction
import AgentsRemember.Lib.Dict

/-!
# Append-only logs folded by key

A log of snapshots is folded into the current snapshot of each key. The last
snapshot wins, except where the snapshot already held `dominates` the new one.
Rewriting the log to the snapshots of some keys keeps exactly those keys of the
fold, in their order.
-/

namespace Lib

variable {κ α : Type} [DecidableEq κ] (key : α → κ) (dominates : α → α → Bool)

def foldStep (d : Dict κ α) (r : α) : Dict κ α :=
  match d.get? (key r) with
  | some previous => if dominates previous r then d else d.set (key r) r
  | none => d.set (key r) r

def foldLog (log : List α) : Dict κ α := log.foldl (foldStep key dominates) Dict.empty

def supersede (previous : Option α) (r : α) : α :=
  match previous with
  | some p => if dominates p r then p else r
  | none => r

theorem get?_foldStep (d : Dict κ α) (r : α) (k : κ) :
    (foldStep key dominates d r).get? k =
      if key r = k then some (supersede dominates (d.get? k) r) else d.get? k := by
  unfold foldStep supersede
  by_cases hk : key r = k
  · subst hk
    cases hd : d.get? (key r) with
    | none => simp
    | some p => by_cases hp : dominates p r <;> simp [hp, hd]
  cases hd : d.get? (key r) with
  | none => simp [hk, Dict.get?_set_ne]
  | some p => by_cases hp : dominates p r <;> simp [hp, hk, Dict.get?_set_ne]

@[simp] theorem foldLog_nil : foldLog key dominates ([] : List α) = Dict.empty := rfl

theorem foldLog_concat (log : List α) (r : α) :
    foldLog key dominates (log ++ [r]) = foldStep key dominates (foldLog key dominates log) r := by
  simp [foldLog, List.foldl_append]

theorem get?_foldLog_concat (log : List α) (r : α) (k : κ) :
    (foldLog key dominates (log ++ [r])).get? k =
      if key r = k then some (supersede dominates ((foldLog key dominates log).get? k) r)
      else (foldLog key dominates log).get? k := by
  rw [foldLog_concat, get?_foldStep]

theorem supersede_eq (previous : Option α) (r : α) :
    supersede dominates previous r = r ∨ previous = some (supersede dominates previous r) := by
  unfold supersede
  cases previous with
  | none => exact Or.inl rfl
  | some p => by_cases hp : dominates p r <;> simp [hp]

variable {log : List α} {k : κ} {r : α}

@[simp] theorem supersede_last (previous : Option α) (r : α) : supersede (fun _ _ => false) previous r = r := by
  cases previous <;> rfl

theorem foldLog_mem (h : (foldLog key dominates log).get? k = some r) : r ∈ log ∧ key r = k := by
  induction log using List.reverseRecOn with
  | nil => simp at h
  | append_singleton log a ih =>
    rw [get?_foldLog_concat] at h
    split at h
    · rename_i hk
      rcases supersede_eq dominates ((foldLog key dominates log).get? k) a with he | he
      · rw [he] at h; cases h; exact ⟨by simp, hk⟩
      · rw [← he] at h
        exact ⟨List.mem_append_left _ (ih h).1, (ih h).2⟩
    · exact ⟨List.mem_append_left _ (ih h).1, (ih h).2⟩

theorem foldLog_isSome : ((foldLog key dominates log).get? k).isSome ↔ ∃ r ∈ log, key r = k := by
  constructor
  · intro h
    obtain ⟨r, hr⟩ := Option.isSome_iff_exists.mp h
    exact ⟨r, foldLog_mem key dominates hr⟩
  intro hex
  obtain ⟨r, hr, rfl⟩ := hex
  induction log using List.reverseRecOn with
  | nil => cases hr
  | append_singleton log a ih =>
    rw [get?_foldLog_concat]
    split
    · rfl
    rename_i hk
    rcases List.mem_append.mp hr with hr | hr
    · exact ih hr
    · exact absurd (by rw [List.mem_singleton.mp hr]) hk

theorem foldLog_eq_none : (foldLog key dominates log).get? k = none ↔ ∀ r ∈ log, key r ≠ k := by
  rw [← Option.not_isSome_iff_eq_none, foldLog_isSome]
  push Not
  rfl

theorem foldLog_entries {e : κ × α} (h : e ∈ (foldLog key dominates log).entries) : key e.2 = e.1 :=
  (foldLog_mem key dominates (Dict.get?_eq_some.mpr h)).2

theorem length_foldLog (log : List α) : (foldLog key dominates log).entries.length ≤ log.length := by
  induction log using List.reverseRecOn with
  | nil => exact Nat.le_refl 0
  | append_singleton log a ih =>
    have hset : ((foldLog key dominates log).set (key a) a).entries.length ≤ (foldLog key dominates log).entries.length + 1 := by
      cases hd : (foldLog key dominates log).get? (key a) with
      | none => simp [Dict.set_entries_of_none hd]
      | some p =>
        rw [Dict.length_set_of_some hd]
        exact Nat.le_succ _
    rw [foldLog_concat, foldStep, List.length_append, List.length_singleton]
    split
    · split <;> omega
    · omega

theorem mem_foldLog_values :
    r ∈ (foldLog key dominates log).values ↔ (foldLog key dominates log).get? (key r) = some r := by
  rw [Dict.mem_values]
  constructor
  · intro hex
    obtain ⟨k, hk⟩ := hex
    rw [(foldLog_mem key dominates hk).2]
    exact hk
  · exact fun h => ⟨_, h⟩

/-! ## Rewriting a log -/

theorem setIn_filter (p : κ → Bool) (k : κ) (v : α) (l : List (κ × α)) :
    (Dict.setIn k v l).filter (fun e => p e.1) =
      if p k then Dict.setIn k v (l.filter fun e => p e.1) else l.filter fun e => p e.1 := by
  induction l with
  | nil => by_cases hk : p k <;> simp [Dict.setIn, hk]
  | cons e l ih =>
    obtain ⟨a, b⟩ := e
    by_cases ha : a = k
    · subst ha
      by_cases hk : p a <;> simp [Dict.setIn, hk]
    · rw [Dict.setIn, if_neg ha, List.filter_cons, List.filter_cons, ih]
      by_cases hpa : p a <;> by_cases hk : p k <;> simp [hpa, hk, Dict.setIn, ha]

theorem entries_foldStep_filter (p : κ → Bool) (d d' : Dict κ α) (r : α)
    (h : d'.entries = d.entries.filter fun e => p e.1) :
    (if p (key r) then foldStep key dominates d' r else d').entries =
      (foldStep key dominates d r).entries.filter fun e => p e.1 := by
  have hd : d' = d.filterKeys p := Dict.ext h
  have hset : (d.set (key r) r).entries.filter (fun e => p e.1) =
      if p (key r) then (d'.set (key r) r).entries else d'.entries := by
    simp only [Dict.set, setIn_filter, h]
  by_cases hp : p (key r)
  · have hg : d'.get? (key r) = d.get? (key r) := by rw [hd, Dict.get?_filterKeys, if_pos hp]
    rw [if_pos hp] at hset ⊢
    unfold foldStep
    rw [hg]
    cases d.get? (key r) with
    | none => exact hset.symm
    | some q =>
      by_cases hq : dominates q r
      · simp [hq, h]
      · simp [hq, hset]
  rw [if_neg hp] at hset ⊢
  unfold foldStep
  cases d.get? (key r) with
  | none => exact hset.symm
  | some q =>
    by_cases hq : dominates q r
    · simp [hq, h]
    · simp [hq, hset]

theorem foldLog_filter (p : κ → Bool) (log : List α) :
    foldLog key dominates (log.filter fun r => p (key r)) = (foldLog key dominates log).filterKeys p := by
  induction log using List.reverseRecOn with
  | nil => rfl
  | append_singleton log a ih =>
    have hs := entries_foldStep_filter key dominates p (foldLog key dominates log) _ a (congrArg Dict.entries ih)
    refine Dict.ext (Eq.trans ?_ (hs.trans (by rw [foldLog_concat]; rfl)))
    rw [List.filter_append]
    by_cases hp : p (key a) <;> simp [hp, foldLog_concat]

theorem values_foldLog_filter (p : κ → Bool) (log : List α) :
    (foldLog key dominates (log.filter fun r => p (key r))).values =
      (foldLog key dominates log).values.filter fun r => p (key r) := by
  rw [foldLog_filter]
  simp only [Dict.values, Dict.filterKeys, List.filter_map]
  refine congrArg (List.map Prod.snd) (List.filter_congr fun e he => ?_)
  rw [Function.comp_apply, foldLog_entries key dominates he]

theorem get?_foldLog_filter (p : κ → Bool) (log : List α) (k : κ) :
    (foldLog key dominates (log.filter fun r => p (key r))).get? k =
      if p k then (foldLog key dominates log).get? k else none := by
  rw [foldLog_filter, Dict.get?_filterKeys]

theorem foldLog_values {d : Dict κ α} (h : ∀ e ∈ d.entries, key e.2 = e.1) :
    foldLog key (fun _ _ => false) d.values = d := by
  have hstep : foldStep key (fun _ _ => false) = fun d r => d.set (key r) r := by
    funext d r
    rw [foldStep]
    cases d.get? (key r) <;> rfl
  have hmap : d.entries = d.values.map fun r => (key r, r) := by
    rw [Dict.values, List.map_map]
    refine Eq.trans (List.map_id _).symm (List.map_congr_left fun e he => ?_)
    rw [Function.comp_apply, h e he]
    rfl
  have hnodup := d.nodup
  rw [hmap] at hnodup
  refine Dict.ext ?_
  calc (foldLog key (fun _ _ => false) d.values).entries
      = (Dict.ofEntries (d.values.map fun r => (key r, r))).entries := by
        rw [foldLog, hstep, Dict.ofEntries, List.foldl_map]
    _ = d.values.map fun r => (key r, r) := Dict.entries_ofEntries hnodup
    _ = d.entries := hmap.symm

end Lib
