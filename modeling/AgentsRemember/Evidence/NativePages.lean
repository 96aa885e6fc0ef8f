import AgentsRemember.Evidence.Clip

/-!
# Native evidence in pages

A page takes the frames after its cursor until a number or a size is reached,
and one frame whatever its size, whose payload is clipped where it is over the
budget. A reader that follows the cursors gets every frame once and in order, as
the first page would put it, or the error of the first that cannot be put so.
-/

namespace AgentsRemember.Evidence

structure NativeEvidenceFrame where
  nativeId : Text
  nativeParentId : Option Text
  nativeType : Text
  createdAt : Option Text
  raw : Fields

structure NativeEvidencePage where
  frames : List NativeEvidenceFrame
  nextCursor : Option Text
  truncated : Bool

def optional : Option Text → Payload
  | some value => .str value
  | none => .null

def nativeEvidenceFrameJson (frame : NativeEvidenceFrame) : Fields :=
  [(text "nativeId", .str frame.nativeId), (text "nativeParentId", optional frame.nativeParentId),
    (text "nativeType", .str frame.nativeType), (text "createdAt", optional frame.createdAt), (text "raw", .obj frame.raw)]

def wireBytes (frame : NativeEvidenceFrame) : Except Fault Nat :=
  match serializedSize (nativeEvidenceFrameJson frame) with
  | some size => .ok size
  | none => .error .unicodeEncodeError

/-- The frame as a page takes it, and its size. -/
def bounded (byteBudget : Int) (frame : NativeEvidenceFrame) : Except Fault (NativeEvidenceFrame × Nat) := do
  let size ← wireBytes frame
  if byteBudget < size then
    let raw ← clipEvidencePayload frame.raw (byteBudget / 2)
    let size ← wireBytes { frame with raw }
    return ({ frame with raw }, size)
  else return (frame, size)

def nativeWindowStart : Option Text → List NativeEvidenceFrame → Except Fault (List NativeEvidenceFrame)
  | none, frames => .ok frames
  | some _, [] => .error (.control "native evidence page cursor is absent from the current native read")
  | some cursor, frame :: rest => if frame.nativeId = cursor then .ok rest else nativeWindowStart (some cursor) rest

/-- The loop of a page: the frames that it selects, and whether any is left. -/
def select (limit byteBudget : Int) : List NativeEvidenceFrame → List NativeEvidenceFrame → Nat →
    Except Fault (List NativeEvidenceFrame × Bool)
  | [], selected, _ => .ok (selected, false)
  | frame :: rest, selected, used =>
    if limit ≤ selected.length then .ok (selected, true)
    else
      match bounded byteBudget frame with
      | .error e => .error e
      | .ok (frame, size) =>
        if selected ≠ [] ∧ byteBudget < used + size then .ok (selected, true)
        else select limit byteBudget rest (selected ++ [frame]) (used + size)

def windowNativeEvidencePage (frames : List NativeEvidenceFrame) (cursor : Option Text) (limit byteBudget : Int) :
    Except Fault NativeEvidencePage :=
  if limit < 1 then .error (.control "native evidence page limit must be positive")
  else if byteBudget < 1 then .error (.control "native evidence page byte budget must be positive")
  else do
    let rest ← nativeWindowStart cursor frames
    let (selected, truncated) ← select limit byteBudget rest [] 0
    return {
      frames := selected
      nextCursor := if truncated then selected.getLast?.map (·.nativeId) else none
      truncated }

/-- The reader, with at most `fuel` pages; no value when that is not enough. -/
def followCursors (frames : List NativeEvidenceFrame) (limit byteBudget : Int) :
    Nat → Option Text → Option (Except Fault (List NativeEvidenceFrame))
  | 0, _ => none
  | fuel + 1, cursor =>
    match windowNativeEvidencePage frames cursor limit byteBudget with
    | .error e => some (.error e)
    | .ok page =>
      match page.nextCursor with
      | none => some (.ok page.frames)
      | some next => (followCursors frames limit byteBudget fuel (some next)).map (·.map (page.frames ++ ·))

/-- A frame as its page delivers it. -/
def delivered (byteBudget : Int) (frame : NativeEvidenceFrame) : Except Fault NativeEvidenceFrame :=
  (bounded byteBudget frame).map Prod.fst

section
variable {limit byteBudget : Int} {frames rest : List NativeEvidenceFrame} {frame frame' : NativeEvidenceFrame}

theorem bounded_eq {size : Nat} (h : bounded byteBudget frame = .ok (frame', size)) :
    (∃ raw, frame' = { frame with raw }) ∧ ((∃ n, wireBytes frame = .ok n ∧ n ≤ byteBudget) → frame' = frame) := by
  unfold bounded at h
  cases hsize : wireBytes frame with
  | error e =>
    rw [hsize] at h
    cases h
  | ok n =>
    simp only [hsize, bind, Except.bind] at h
    split at h
    · rename_i hover
      cases hraw : clipEvidencePayload frame.raw (byteBudget / 2) with
      | error e =>
        rw [hraw] at h
        cases h
      | ok raw =>
        simp only [hraw] at h
        cases hclipped : wireBytes { frame with raw } with
        | error e =>
          rw [hclipped] at h
          cases h
        | ok m =>
          rw [hclipped] at h
          cases h
          refine ⟨⟨raw, rfl⟩, fun ⟨n', hn', hle⟩ => ?_⟩
          cases hn'
          omega
    · cases h
      exact ⟨⟨frame.raw, rfl⟩, fun _ => rfl⟩

theorem delivered_nativeId (h : delivered byteBudget frame = .ok frame') : frame'.nativeId = frame.nativeId := by
  unfold delivered at h
  cases hb : bounded byteBudget frame with
  | error e =>
    rw [hb] at h
    cases h
  | ok p =>
    rw [hb] at h
    cases h
    obtain ⟨⟨raw, hraw⟩, -⟩ := bounded_eq hb
    rw [hraw]

theorem windowStart_of_last {done : List NativeEvidenceFrame} {last : NativeEvidenceFrame}
    (hn : ((done ++ last :: rest).map (·.nativeId)).Nodup) :
    nativeWindowStart (some last.nativeId) (done ++ last :: rest) = .ok rest := by
  induction done with
  | nil => exact if_pos rfl
  | cons frame done ih =>
    rw [List.cons_append, List.map_cons, List.nodup_cons] at hn
    rw [List.cons_append, nativeWindowStart, if_neg fun (he : frame.nativeId = last.nativeId) => hn.1 (by simp [he]), ih hn.2]

/-- One page: it takes what it delivers from the front, at least one frame, or fails where the deliveries fail. -/
theorem select_spec (byteBudget : Int) : ∀ (rest selected : List NativeEvidenceFrame) (used : Nat), (selected = [] → 1 ≤ limit) →
    (∃ taken left more, rest = taken ++ left ∧ taken.mapM (delivered byteBudget) = .ok more ∧
      (rest ≠ [] → selected ++ more ≠ []) ∧
      select limit byteBudget rest selected used = .ok (selected ++ more, !left.isEmpty)) ∨
    ∃ e, rest.mapM (delivered byteBudget) = .error e ∧ select limit byteBudget rest selected used = .error e
  | [], selected, used, _ => .inl ⟨[], [], [], rfl, rfl, fun h => (h rfl).elim, by rw [select, List.append_nil]; rfl⟩
  | frame :: rest, selected, used, hlimit => by
    rw [select]
    have hstop (hne : selected ≠ []) : ∃ taken left more, frame :: rest = taken ++ left ∧
        taken.mapM (delivered byteBudget) = .ok more ∧ (frame :: rest ≠ [] → selected ++ more ≠ []) ∧
        (Except.ok (selected, true) : Except Fault _) = .ok (selected ++ more, !left.isEmpty) :=
      ⟨[], frame :: rest, [], rfl, rfl, fun _ => by simpa using hne, by rw [List.append_nil]; rfl⟩
    by_cases hfull : limit ≤ selected.length
    · rw [if_pos hfull]
      refine .inl (hstop fun he => ?_)
      have hpositive := hlimit he
      rw [he] at hfull
      exact absurd hfull (by simpa using Int.lt_of_lt_of_le Int.zero_lt_one hpositive)
    rw [if_neg hfull]
    cases hb : bounded byteBudget frame with
    | error e => exact .inr ⟨e, by simp [List.mapM_cons, delivered, hb, Except.map, bind, Except.bind], rfl⟩
    | ok p =>
      have hd : delivered byteBudget frame = .ok p.1 := by
        rw [delivered, hb]
        rfl
      dsimp only
      split
      · rename_i hover
        exact .inl (hstop hover.1)
      rcases select_spec byteBudget rest (selected ++ [p.1]) (used + p.2) (fun h => by simp at h) with
        ⟨taken, left, more, hrest, hmore, -, hselect⟩ | ⟨e, herror, hselect⟩
      · refine .inl ⟨frame :: taken, left, p.1 :: more, by rw [hrest]; rfl, ?_, fun _ => by simp, ?_⟩
        · simp [List.mapM_cons, hd, hmore, bind, Except.bind, pure, Except.pure]
        · rw [hselect, List.append_assoc]
          rfl
      · exact .inr ⟨e, by simp [List.mapM_cons, hd, herror, bind, Except.bind], hselect⟩

theorem mapM_delivered_last {taken more : List NativeEvidenceFrame} {last : NativeEvidenceFrame}
    (h : taken.mapM (delivered byteBudget) = .ok more) (hlast : more.getLast? = some last) :
    ∃ done final, taken = done ++ [final] ∧ final.nativeId = last.nativeId := by
  rcases List.eq_nil_or_concat taken with rfl | ⟨done, final, rfl⟩
  · cases h
    cases hlast
  refine ⟨done, final, List.concat_eq_append .., ?_⟩
  rw [List.concat_eq_append, List.mapM_append] at h
  cases hdone : done.mapM (delivered byteBudget) with
  | error e =>
    rw [hdone] at h
    cases h
  | ok before =>
    cases hfinal : delivered byteBudget final with
    | error e => simp [hdone, hfinal, bind, Except.bind] at h
    | ok out =>
      simp only [hdone, hfinal, List.mapM_cons, List.mapM_nil, bind, Except.bind, pure, Except.pure, Except.ok.injEq] at h
      rw [← h, List.getLast?_append_of_ne_nil _ (List.cons_ne_nil _ _)] at hlast
      obtain rfl := Option.some.inj hlast
      exact (delivered_nativeId hfinal).symm

theorem followCursors_from (hlimit : 1 ≤ limit) (hbudget : 1 ≤ byteBudget) : ∀ (fuel : Nat) (done rest : List NativeEvidenceFrame)
    (cursor : Option Text), ((done ++ rest).map (·.nativeId)).Nodup → nativeWindowStart cursor (done ++ rest) = .ok rest →
    rest.length < fuel →
    followCursors (done ++ rest) limit byteBudget fuel cursor = some (rest.mapM (delivered byteBudget))
  | 0, _, _, _, _, _, h => by cases h
  | fuel + 1, done, rest, cursor, hn, hstart, hfuel => by
    have hpage : windowNativeEvidencePage (done ++ rest) cursor limit byteBudget =
        (select limit byteBudget rest [] 0).map fun page =>
          ⟨page.1, if page.2 then page.1.getLast?.map (·.nativeId) else none, page.2⟩ := by
      rw [windowNativeEvidencePage, if_neg (by omega), if_neg (by omega), hstart]
      cases hs : select limit byteBudget rest [] 0 <;> simp [hs, bind, Except.bind, Except.map, pure, Except.pure]
    rw [followCursors, hpage]
    rcases select_spec byteBudget rest [] 0 (fun _ => hlimit) with
      ⟨taken, left, more, hrest, hmore, hne, hselect⟩ | ⟨e, herror, hselect⟩
    · rw [hselect]
      subst hrest
      cases left with
      | nil =>
        rw [List.append_nil, hmore]
        rfl
      | cons next left =>
        have hsome : more ≠ [] := by simpa using hne (by simp)
        have hlast := List.getLast?_eq_some_getLast hsome
        obtain ⟨before, final, rfl, hfinal⟩ := mapM_delivered_last hmore hlast
        have hsplit : done ++ (before ++ [final] ++ next :: left) = (done ++ before ++ [final]) ++ next :: left := by simp
        have hsplit' : done ++ before ++ [final] ++ next :: left = (done ++ before) ++ final :: next :: left := by simp
        have hrec := followCursors_from hlimit hbudget fuel (done ++ before ++ [final]) (next :: left) (some final.nativeId)
          (hsplit ▸ hn) (hsplit' ▸ windowStart_of_last (by rw [← hsplit', ← hsplit]; exact hn)) (by simp at hfuel ⊢; omega)
        rw [hsplit]
        simp only [Except.map, List.nil_append, List.isEmpty_cons, Bool.not_false, if_true, hlast, Option.map_some, ← hfinal, hrec]
        rw [List.mapM_append, hmore]
        cases (next :: left).mapM (delivered byteBudget) <;> rfl
    · rw [hselect, herror]
      rfl

/-- **Native pages.** Whatever the limit and the budget, where both are positive, the reader ends with every frame delivered
once and in order; what is delivered keeps its identity, and is the frame itself where that is within the budget. -/
theorem native_pages_complete (frames : List NativeEvidenceFrame) (limit byteBudget : Int) (hlimit : 1 ≤ limit)
    (hbudget : 1 ≤ byteBudget) (hn : (frames.map (·.nativeId)).Nodup) :
    (∀ fuel, frames.length < fuel → followCursors frames limit byteBudget fuel none = some (frames.mapM (delivered byteBudget))) ∧
    ∀ frame frame' : NativeEvidenceFrame, delivered byteBudget frame = .ok frame' →
      (∃ raw, frame' = { frame with raw }) ∧ ((∃ n, wireBytes frame = .ok n ∧ n ≤ byteBudget) → frame' = frame) := by
  refine ⟨fun fuel hfuel => followCursors_from hlimit hbudget fuel [] frames none hn (by cases frames <;> rfl) hfuel, fun frame frame' h => ?_⟩
  unfold delivered at h
  cases hb : bounded byteBudget frame with
  | error e =>
    rw [hb] at h
    cases h
  | ok p =>
    rw [hb] at h
    cases h
    exact bounded_eq hb

end

def briefFrame (id : String) : NativeEvidenceFrame := ⟨text id, none, text "item", none, []⟩

theorem native_pages_two : (([briefFrame "a", briefFrame "b"].map (·.nativeId)).Nodup) ∧
    followCursors [briefFrame "a", briefFrame "b"] 1 1024 3 none = some ([briefFrame "a", briefFrame "b"].mapM (delivered 1024)) :=
  ⟨by decide, (native_pages_complete [briefFrame "a", briefFrame "b"] 1 1024 (by decide) (by decide) (by decide)).1 3 (by decide)⟩

/-- A page of no frames is refused. -/
theorem no_limit_no_page : ¬ ∀ (frames : List NativeEvidenceFrame) (limit byteBudget : Int), (frames.map (·.nativeId)).Nodup →
    ∃ fuel, followCursors frames limit byteBudget fuel none = some (.ok frames) := by
  intro h
  obtain ⟨fuel, hfuel⟩ := h [briefFrame "a"] 0 1024 (by decide)
  cases fuel <;> cases hfuel

end AgentsRemember.Evidence
