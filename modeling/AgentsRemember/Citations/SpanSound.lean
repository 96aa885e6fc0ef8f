import AgentsRemember.Citations.Editing
import AgentsRemember.Lib.LineEdits

/-!
# The spans of a line

Splicing the edits of a line one by one, the last first, is replacing all their
spans at once, as long as no span reaches into another. The writers therefore
edit every line on its own, with the edits that name it.
-/

namespace AgentsRemember.Citations

open Lib Lib.Lines

/-! ## Places -/

structure InLine (line : List Char) (site : Site) : Prop where
  stop : site.stop ≤ line.length
  text : isBlank (body line site) = false

variable {line : List Char} {site : Site} {m : Nat} {a b : SiteEdit}

theorem length_body (h : InLine line site) : (body line site).length = site.stop - site.start := by
  have := h.stop
  rw [body, List.length_take, List.length_drop]
  omega

theorem start_lt_stop (h : InLine line site) : site.start < site.stop := by
  by_contra hle
  have hnil : body line site = [] := by
    rw [body, Nat.sub_eq_zero_of_le (by omega), List.take_zero]
  have := h.text
  rw [hnil] at this
  cases this

theorem getElem?_body {i : Nat} (h : i < site.stop - site.start) : (body line site)[i]? = (line)[site.start + i]? := by
  rw [body, List.getElem?_take_of_lt h, List.getElem?_drop]

theorem padding_lt {cs : List Char} (h : isBlank cs = false) :
    (cs.takeWhile isPythonSpace).length < (cs.rdropWhile isPythonSpace).length := by
  obtain ⟨c, ds, hd⟩ := List.exists_cons_of_ne_nil (l := cs.dropWhile isPythonSpace) fun hnil => by
    rw [List.dropWhile_eq_nil_iff, ← List.all_eq_true] at hnil
    rw [isBlank, hnil] at h
    cases h
  have hsplit := List.takeWhile_append_dropWhile (p := isPythonSpace) (l := cs)
  have hright : cs.rdropWhile isPythonSpace = cs.takeWhile isPythonSpace ++ c :: ds.rdropWhile isPythonSpace := by
    rw [← rdropWhile_append_cons (head_dropWhile_ne hd), ← hd, hsplit]
  rw [hright, List.length_append, List.length_cons]
  omega

theorem place_eq (h : InLine line site) : place line site =
    (site.start + ((body line site).takeWhile isPythonSpace).length,
      site.start + ((body line site).rdropWhile isPythonSpace).length) := by
  have hlen := length_body h
  have hlt := start_lt_stop h
  have hpad := padding_lt h.text
  have hsplit := congrArg List.length (List.takeWhile_append_dropWhile (p := isPythonSpace) (l := body line site))
  rw [List.length_append] at hsplit
  rw [place, Prod.mk.injEq]
  omega

theorem start_le_place (h : InLine line site) : site.start ≤ (place line site).1 := by
  rw [place_eq h]
  exact Nat.le_add_right _ _

theorem place_lt (h : InLine line site) : (place line site).1 < (place line site).2 := by
  rw [place_eq h]
  exact Nat.add_lt_add_left (padding_lt h.text) _

theorem place_le (h : InLine line site) : (place line site).2 ≤ site.stop := by
  have hprefix := (List.rdropWhile_prefix isPythonSpace (body line site)).length_le
  have hlen := length_body h
  have hlt := start_lt_stop h
  rw [place_eq h]
  dsimp only
  omega

theorem text_start (h : InLine line site) :
    (∃ c, (line)[(place line site).1]? = some c ∧ isPythonSpace c = false) ∧
      ∀ i, site.start ≤ i → i < (place line site).1 → ∀ c, (line)[i]? = some c → isPythonSpace c = true := by
  obtain ⟨c, ds, hd⟩ := List.exists_cons_of_ne_nil (l := (body line site).dropWhile isPythonSpace) fun hnil => by
    rw [List.dropWhile_eq_nil_iff, ← List.all_eq_true] at hnil
    have := h.text
    rw [isBlank, hnil] at this
    cases this
  have hsplit := List.takeWhile_append_dropWhile (p := isPythonSpace) (l := body line site)
  have hpad := padding_lt h.text
  have hprefix := (List.rdropWhile_prefix isPythonSpace (body line site)).length_le
  have hlen := length_body h
  rw [place_eq h]
  constructor
  · refine ⟨c, ?_, head_dropWhile_ne hd⟩
    rw [← getElem?_body (by omega), ← hsplit, List.getElem?_append_right (by rw [hsplit]), hsplit, hd]
    simp
  intro i hi hlt d hd'
  dsimp only at hlt
  have hget : (body line site)[i - site.start]? = some d := by
    rw [getElem?_body (by omega), Nat.add_sub_cancel' hi]
    exact hd'
  rw [← hsplit, List.getElem?_append_left (by omega)] at hget
  exact List.all_eq_true.mp List.all_takeWhile d (List.mem_of_getElem? hget)

theorem text_stop (h : InLine line site) :
    ∀ i, (place line site).2 ≤ i → i < site.stop → ∀ c, (line)[i]? = some c → isPythonSpace c = true := by
  have hlen := length_body h
  have hsplit := List.rdropWhile_append_rtakeWhile (p := isPythonSpace) (l := body line site)
  rw [place_eq h]
  intro i hi hlt d hd
  dsimp only at hi
  have hget : (body line site)[i - site.start]? = some d := by
    rw [getElem?_body (by omega), Nat.add_sub_cancel' (by omega)]
    exact hd
  rw [← hsplit, List.getElem?_append_right (by omega)] at hget
  have hmem := List.mem_of_getElem? hget
  exact List.mem_rtakeWhile_imp hmem

/-! ## The spans of one line -/

def patchOf (line : List Char) (edit : SiteEdit) : Patch Char := ⟨(place line edit.1).1, (place line edit.1).2, edit.2⟩

def spliceLine (edits : List SiteEdit) (line : List Char) : List Char := edits.foldl (fun l e => spliced l e.1 e.2) line

theorem stop_le (h : InLine line site) (hm : (place line site).2 ≤ m)
    (hend : m = line.length ∨ ∃ c, (line)[m]? = some c ∧ isPythonSpace c = false) : site.stop ≤ m := by
  rcases hend with rfl | ⟨c, hc, hblank⟩
  · exact h.stop
  by_contra hlt
  rw [text_stop h m hm (by omega) c hc] at hblank
  cases hblank

theorem body_take (h : site.stop ≤ m) (hm : m ≤ line.length) (rest : List Char) :
    body (line.take m ++ rest) site = body line site := by
  by_cases hlt : site.start ≤ m
  · rw [body, body, List.drop_append_of_le_length (by rw [List.length_take]; omega), List.drop_take,
      List.take_append_of_le_length (by rw [List.length_take, List.length_drop]; omega), List.take_take,
      Nat.min_eq_left (by omega)]
  · rw [body, body, Nat.sub_eq_zero_of_le (by omega), List.take_zero, List.take_zero]

theorem foldl_spliced : ∀ {ds : List SiteEdit} {m : Nat} {r : List Char}, (∀ e ∈ ds, InLine line e.1) →
    m ≤ line.length → (m = line.length ∨ ∃ c, (line)[m]? = some c ∧ isPythonSpace c = false) →
    patch (ds.map (patchOf line)) (line.take m) = some r → ∀ rest, spliceLine ds (line.take m ++ rest) = r ++ rest
  | [], m, r, _, _, _, h, rest => by
    obtain rfl := Option.some.inj h
    rfl
  | e :: ds, m, r, hin, hm, hend, h, rest => by
    rw [List.forall_mem_cons] at hin
    obtain ⟨hle, hstop, r', hr', rfl⟩ := patch_cons h
    rw [List.length_take, Nat.min_eq_left hm] at hstop
    change (place line e.1).1 ≤ (place line e.1).2 at hle
    change (place line e.1).2 ≤ m at hstop
    change patch (ds.map (patchOf line)) ((line.take m).take (place line e.1).1) = some r' at hr'
    have hbody := body_take (stop_le hin.1 hstop hend) hm rest
    have hplace : place (line.take m ++ rest) e.1 = place line e.1 := by rw [place, place, hbody]
    have hstart : (place line e.1).1 ≤ m := hle.trans hstop
    have hone : spliced (line.take m ++ rest) e.1 e.2 =
        line.take (place line e.1).1 ++ (e.2 ++ ((line.take m).drop (place line e.1).2 ++ rest)) := by
      rw [spliced, hplace, List.take_append_of_le_length (by rw [List.length_take]; omega), List.take_take,
        Nat.min_eq_left hstart, List.drop_append_of_le_length (by rw [List.length_take]; omega), List.append_assoc]
    rw [List.take_take, Nat.min_eq_left hstart] at hr'
    have ih := foldl_spliced hin.2 (hstart.trans hm) (.inr (text_start hin.1).1) hr'
      (e.2 ++ ((line.take m).drop (place line e.1).2 ++ rest))
    rw [spliceLine, List.foldl_cons, hone]
    rw [spliceLine] at ih
    rw [ih]
    simp only [patchOf, List.append_assoc]

/-- Neither of two spans of a line reaches into the other. -/
def Apart (line : List Char) (a b : SiteEdit) : Prop :=
  (place line a.1).2 ≤ (place line b.1).1 ∨ (place line b.1).2 ≤ (place line a.1).1

theorem apart_symm (h : Apart line a b) : Apart line b a := h.symm

theorem behind_of_start (ha : InLine line a.1) (hb : InLine line b.1) (h : Apart line a b)
    (hstart : b.1.start ≤ a.1.start) : (place line b.1).2 ≤ (place line a.1).1 := by
  refine h.resolve_left fun hle => ?_
  obtain ⟨c, hc, hblank⟩ := (text_start ha).1
  have hlt := place_lt ha
  have hafter := start_le_place ha
  rw [(text_start hb).2 _ (by omega) (by omega) c hc] at hblank
  cases hblank

theorem exists_patch : ∀ {ds : List SiteEdit} {m : Nat}, (∀ e ∈ ds, InLine line e.1) → m ≤ line.length →
    (∀ e ∈ ds, (place line e.1).2 ≤ m) → ds.Pairwise (fun e f => (place line f.1).2 ≤ (place line e.1).1) →
    ∃ r, patch (ds.map (patchOf line)) (line.take m) = some r
  | [], m, _, _, _, _ => ⟨_, rfl⟩
  | e :: ds, m, hin, hm, hstop, hsort => by
    rw [List.forall_mem_cons] at hin hstop
    rw [List.pairwise_cons] at hsort
    have hlt := place_lt hin.1
    obtain ⟨r, hr⟩ := exists_patch hin.2 (by omega) hsort.1 hsort.2
    refine ⟨r ++ e.2 ++ (line.take m).drop (place line e.1).2, ?_⟩
    rw [List.map_cons, patch, if_pos ⟨Nat.le_of_lt hlt, by rw [List.length_take, Nat.min_eq_left hm]; exact hstop.1⟩]
    have htake : (line.take m).take (place line e.1).1 = line.take (place line e.1).1 := by
      rw [List.take_take, Nat.min_eq_left (by omega)]
    rw [patchOf, htake, hr]
    rfl

theorem patch_stop : ∀ {es : List (Patch Char)} {l r : List Char}, patch es l = some r →
    ∀ e ∈ es, e.stop ≤ l.length
  | [], _, _, _ => nofun
  | e :: es, l, r, h => by
    obtain ⟨hle, hstop, r', hr', -⟩ := patch_cons h
    refine List.forall_mem_cons.mpr ⟨hstop, fun f hf => ?_⟩
    have := patch_stop hr' f hf
    rw [List.length_take] at this
    omega

theorem apart_of_patch : ∀ {ds : List SiteEdit} {l r : List Char}, patch (ds.map (patchOf line)) l = some r →
    ds.Pairwise (Apart line)
  | [], _, _, _ => .nil
  | e :: ds, l, r, h => by
    obtain ⟨hle, hstop, r', hr', -⟩ := patch_cons h
    refine List.pairwise_cons.mpr ⟨fun f hf => .inr ?_, apart_of_patch hr'⟩
    have := patch_stop hr' _ (List.mem_map_of_mem hf)
    rw [List.length_take] at this
    exact this.trans (Nat.min_le_left _ _)

theorem spliceAt_some {lines : List (List Char)} {e : SiteEdit} (h : e.1.line - 1 < lines.length) :
    spliceAt lines e = some (lines.modify (e.1.line - 1) fun line => spliced line e.1 e.2) := if_pos h

/-- The edits of one line. -/
def atLine (edits : List SiteEdit) (n : Nat) : List SiteEdit := edits.filter fun e => e.1.line = n

theorem foldlM_spliceAt : ∀ {edits : List SiteEdit} {lines : List (List Char)},
    (∀ e ∈ edits, 1 ≤ e.1.line ∧ e.1.line ≤ lines.length) →
    edits.foldlM spliceAt lines = some (lines.mapIdx fun i l => spliceLine (atLine edits (i + 1)) l)
  | [], lines, _ => congrArg some (mapIdx_same (fun _ _ => rfl) lines).symm
  | e :: edits, lines, h => by
    rw [List.forall_mem_cons] at h
    have hrest := @foldlM_spliceAt edits (lines.modify (e.1.line - 1) fun line => spliced line e.1 e.2)
      fun f hf => by rw [List.length_modify]; exact h.2 f hf
    rw [List.foldlM_cons, spliceAt_some (by omega)]
    show List.foldlM spliceAt _ edits = _
    rw [hrest]
    refine congrArg some (List.ext_getElem? fun i => ?_)
    rw [List.getElem?_mapIdx, List.getElem?_mapIdx, List.getElem?_modify]
    cases lines[i]? with
    | none => rfl
    | some l =>
      by_cases hi : e.1.line = i + 1
      · have hsub : e.1.line - 1 = i := by omega
        simp [atLine, hi, spliceLine]
      · have hsub : ¬ e.1.line - 1 = i := by omega
        simp [atLine, hi, hsub]

theorem foldlM_setLine : ∀ {entries : List (Nat × List Char)} {lines : List (List Char)}, (entries.map Prod.fst).Nodup →
    (∀ e ∈ entries, 1 ≤ e.1 ∧ e.1 ≤ lines.length) →
    entries.foldlM setLine lines = some (lines.mapIdx fun i l => (Dict.lookupIn (i + 1) entries).getD l)
  | [], lines, _, _ => congrArg some (mapIdx_same (fun _ _ => rfl) lines).symm
  | (n, t) :: entries, lines, hn, h => by
    rw [List.forall_mem_cons] at h
    rw [List.map_cons, List.nodup_cons] at hn
    have hset : setLine lines (n, t) = some (lines.set (n - 1) t) := if_pos (by have := h.1; dsimp only at this ⊢; omega)
    have hrest := @foldlM_setLine entries (lines.set (n - 1) t) hn.2
      fun f hf => by rw [List.length_set]; exact h.2 f hf
    rw [List.foldlM_cons, hset]
    show List.foldlM setLine _ entries = _
    rw [hrest]
    refine congrArg some (List.ext_getElem? fun i => ?_)
    rw [List.getElem?_mapIdx, List.getElem?_mapIdx, List.getElem?_set]
    by_cases hi : n = i + 1
    · subst hi
      have hnone : Dict.lookupIn (i + 1) entries = none := Dict.lookupIn_eq_none.mpr hn.1
      have hin : i < lines.length := by have := h.1; dsimp only at this; omega
      simp [Dict.lookupIn, hnone, hin]
    · have hsub : ¬ n - 1 = i := by have := h.1; dsimp only at this; omega
      simp [Dict.lookupIn, hi, hsub]

end AgentsRemember.Citations
