import AgentsRemember.Evidence.Clip

/-!
# The contract of the clip

A clip fits, changes nothing that fits already, and keeps the identity scalars;
it refuses only a number of bytes that is not positive or below the envelope.
All of it holds exactly where no string of the payload has a lone surrogate,
which the clip meets outside of what it guards.
-/

namespace AgentsRemember.Evidence

open Lib

/-! ## Text that encodes -/

theorem encodable_iff {c : Nat} : encodable c = true ↔ c < 0xD800 ∨ 0xDFFF < c := by
  simp only [encodable, Bool.not_eq_true', Bool.and_eq_false_iff, decide_eq_false_iff_not]
  omega

theorem all_text (s : String) : (text s).all encodable = true := by
  rw [List.all_eq_true]
  intro c hc
  obtain ⟨ch, -, rfl⟩ := List.mem_map.mp hc
  have hvalid : ch.toNat < 0xD800 ∨ 0xDFFF < ch.toNat ∧ ch.toNat < 0x110000 := ch.valid
  exact encodable_iff.mpr (hvalid.imp id And.left)

theorem text_injective : Function.Injective text := fun _ _ h =>
  String.toList_inj.mp (List.map_injective_iff.mpr (fun _ _ hc => Char.toNat_inj.mp hc) h)

mutual
def clean : Payload → Bool
  | .str value => value.all encodable
  | .arr items => cleanItems items
  | .obj fields => cleanFields fields
  | _ => true
  termination_by structural v => v
def cleanItems : List Payload → Bool
  | [] => true
  | v :: items => clean v && cleanItems items
  termination_by structural items => items
def cleanFields : Fields → Bool
  | [] => true
  | (key, v) :: fields => key.all encodable && clean v && cleanFields fields
  termination_by structural fields => fields
end

attribute [local simp] clean cleanItems cleanFields dumps dumpsItems dumpsFields

theorem all_escapeCode (c : Nat) : (escapeCode c).all encodable = encodable c := by
  have hlow : c < 128 → encodable c = true := fun h => encodable_iff.mpr (.inl (by omega))
  have hdigit : ∀ n < 16, encodable (hexDigit n) = true := by decide
  unfold escapeCode
  repeat' split
  all_goals
    first
    | rw [all_text, hlow (by omega)]
    | skip
  · rw [List.all_append, all_text, List.all_cons, List.all_cons, hdigit _ (by omega), hdigit _ (by omega), hlow (by omega)]
    rfl
  · rw [List.all_cons, List.all_nil, Bool.and_true]

theorem all_quoted (s : Text) : (quoted s).all encodable = s.all encodable := by
  have hquote : encodable 34 = true := by decide
  simp [quoted, hquote, List.all_flatMap, all_escapeCode, -List.all_eq_true]

mutual
theorem all_dumps : ∀ v, (dumps v).all encodable = clean v
  | .null => all_text _
  | .bool _ => all_text _
  | .number _ => all_text _
  | .str value => all_quoted value
  | .arr items => by simp [all_dumpsItems items, encodable]
  | .obj fields => by simp [all_dumpsFields fields, encodable]
  termination_by structural v => v
theorem all_dumpsItems : ∀ items, (dumpsItems items).all encodable = cleanItems items
  | [] => rfl
  | v :: items => by
    have hrest := all_dumpsItems items
    cases items <;> simp_all [all_dumps v, encodable]
  termination_by structural items => items
theorem all_dumpsFields : ∀ fields, (dumpsFields fields).all encodable = cleanFields fields
  | [] => rfl
  | (key, v) :: fields => by
    have hrest := all_dumpsFields fields
    cases fields <;> simp_all [all_quoted, all_dumps v, encodable, Bool.and_assoc]
  termination_by structural fields => fields
end

variable {fields : Fields}

theorem serializedSize_eq_none : serializedSize fields = none ↔ cleanFields fields = false := by
  rw [serializedSize, encodedLength, all_dumps, clean]
  cases cleanFields fields <;> simp

/-! ## The candidates encode -/

theorem cleanFields_eq (fields : Fields) : cleanFields fields = fields.all fun e => e.1.all encodable && clean e.2 := by
  induction fields with
  | nil => rfl
  | cons e fields ih => rw [cleanFields, ih, List.all_cons]

theorem cleanFields_iff :
    cleanFields fields = true ↔ ∀ e ∈ fields, e.1.all encodable = true ∧ clean e.2 = true := by
  rw [cleanFields_eq, List.all_eq_true]
  simp only [Bool.and_eq_true]

variable {limit : Nat}

theorem clean_truncatedString {value : Text} (h : value.all encodable = true) :
    (truncatedString limit value).all encodable = true := by
  unfold truncatedString
  split
  · exact h
  have htaken : (value.take limit).all encodable = true :=
    List.all_eq_true.mpr fun c hc => List.all_eq_true.mp h c (List.mem_of_mem_take hc)
  simp [evidenceTruncationMarker, all_text, htaken, -List.all_eq_true]

mutual
theorem clean_truncate (limit : Nat) : ∀ v, clean v = true → clean (truncateStringLeaves limit v) = true
  | .null, _ => rfl
  | .bool _, _ => rfl
  | .number _, _ => rfl
  | .str _, h => clean_truncatedString h
  | .arr items, h => clean_truncateItems limit items h
  | .obj fields, h => clean_truncateFields limit fields h
  termination_by structural v => v
theorem clean_truncateItems (limit : Nat) : ∀ items, cleanItems items = true → cleanItems (truncateItems limit items) = true
  | [], _ => rfl
  | v :: items, h => by
    rw [cleanItems, Bool.and_eq_true] at h
    simp [truncateItems, clean_truncate limit v h.1, clean_truncateItems limit items h.2]
  termination_by structural items => items
theorem clean_truncateFields (limit : Nat) : ∀ fields, cleanFields fields = true → cleanFields (truncateFields limit fields) = true
  | [], _ => rfl
  | (key, v) :: fields, h => by
    rw [cleanFields, Bool.and_eq_true, Bool.and_eq_true] at h
    simp [truncateFields, h.1.1, clean_truncate limit v h.1.2, clean_truncateFields limit fields h.2, -List.all_eq_true]
  termination_by structural fields => fields
end

theorem clean_setIn {key : Text} {v : Payload} (h : cleanFields fields = true) (hk : key.all encodable = true)
    (hv : clean v = true) : cleanFields (Dict.setIn key v fields) = true := by
  induction fields with
  | nil => simp [Dict.setIn, hk, hv]
  | cons e fields ih =>
    obtain ⟨k, w⟩ := e
    rw [cleanFields, Bool.and_eq_true] at h
    rw [Dict.setIn]
    split <;> simp_all [-List.all_eq_true]

theorem clean_bounded (source : Fields) (keys : List String) (h : ∀ e ∈ source, clean e.2 = true) :
    cleanFields (boundedIdentityScalars source keys) = true := by
  rw [cleanFields_iff]
  intro e he
  obtain ⟨key, -, hkey⟩ := List.mem_filterMap.mp he
  obtain ⟨scalar, hscalar, rfl⟩ := Option.map_eq_some_iff.mp hkey
  refine ⟨all_text key, ?_⟩
  cases hl : Dict.lookupIn (text key) source with
  | none =>
    rw [hl] at hscalar
    cases hscalar
  | some v =>
    rw [hl] at hscalar
    have hv := h _ (Dict.mem_of_lookupIn hl)
    cases v <;> simp only [boundedIdentityScalar, reduceCtorEq] at hscalar
    split at hscalar
    · obtain rfl := Option.some.inj hscalar
      exact hv
    · cases hscalar

theorem clean_nested (payload : Fields) (path : String) (keys : List String) (h : ∀ e ∈ payload, clean e.2 = true) :
    cleanFields (nestedIdentityScalars payload path keys) = true := by
  unfold nestedIdentityScalars
  split
  · rename_i nested hl
    split
    · rfl
    have hnested : cleanFields nested = true := h _ (Dict.mem_of_lookupIn hl)
    rw [cleanFields, all_text, clean, clean_bounded nested keys fun e he => (cleanFields_iff.mp hnested e he).2]
    rfl
  · rfl

theorem cleanFields_append (a b : Fields) : cleanFields (a ++ b) = (cleanFields a && cleanFields b) := by
  rw [cleanFields_eq, cleanFields_eq, cleanFields_eq, List.all_append]

theorem subset_previews {preview p : Text} : ∀ {n : Nat}, p ∈ previews n preview → ∀ c ∈ p, c ∈ preview
  | 0, h => by cases h
  | n + 1, h => by
    rcases List.mem_cons.mp h with rfl | h
    · exact fun c hc => hc
    · exact fun c hc => List.mem_of_mem_take (subset_previews h c hc)

variable {payload : Fields}

theorem clean_candidates (h : cleanFields payload = true) (originalBytes : Nat) :
    ∀ c ∈ candidates payload originalBytes, cleanFields c = true := by
  intro c hc
  have hvalues : ∀ e ∈ payload, clean e.2 = true := fun e he => (cleanFields_iff.mp h e he).2
  rcases List.mem_append.mp hc with hc | hc
  · obtain ⟨limit, -, rfl⟩ := List.mem_map.mp hc
    exact clean_setIn (clean_setIn (clean_truncateFields limit payload h) (all_text _) rfl) (all_text _) rfl
  obtain ⟨preview, hmem, rfl⟩ := List.mem_map.mp hc
  have hpreview : preview.all encodable = true := by
    have hall : (dumps (.obj payload)).all encodable = true := (all_dumps _).trans h
    exact List.all_eq_true.mpr fun c hc => List.all_eq_true.mp hall c (subset_previews hmem c hc)
  rw [truncationEnvelope, cleanFields_append, preservedEvidenceIdentity, cleanFields_append, cleanFields_append,
    clean_bounded _ _ hvalues, clean_nested _ _ _ hvalues, clean_nested _ _ _ hvalues]
  simp [all_text, evidenceTruncationMarker, hpreview]

/-! ## The identity scalars -/

theorem lookupIn_append (k : Text) (v : Fields) : ∀ u : Fields, Dict.lookupIn k (u ++ v) = (Dict.lookupIn k u).or (Dict.lookupIn k v)
  | [] => rfl
  | (k', w) :: u => by
    rw [List.cons_append, Dict.lookupIn, Dict.lookupIn, lookupIn_append k v u]
    split <;> rfl

theorem lookupIn_bounded (source : Fields) (key : String) : ∀ keys : List String,
    Dict.lookupIn (text key) (boundedIdentityScalars source keys) =
      if key ∈ keys then (boundedIdentityScalar (Dict.lookupIn (text key) source)).map .str else none
  | [] => rfl
  | k :: keys => by
    have hrest := lookupIn_bounded source key keys
    unfold boundedIdentityScalars at hrest ⊢
    rw [List.filterMap_cons]
    cases hk : boundedIdentityScalar (Dict.lookupIn (text k) source) with
    | none =>
      rw [Option.map_none]
      dsimp only
      rw [hrest]
      by_cases he : key = k
      · subst he
        simp [hk]
      · simp [he]
    | some scalar =>
      rw [Option.map_some]
      dsimp only
      rw [Dict.lookupIn, hrest]
      by_cases he : key = k
      · subst he
        simp [hk]
      · rw [if_neg fun h => he (text_injective h).symm]
        simp [he]

theorem boundedIdentityScalar_again (v : Option Payload) :
    boundedIdentityScalar ((boundedIdentityScalar v).map .str) = boundedIdentityScalar v := by
  match v with
  | none | some .null | some (.bool _) | some (.number _) | some (.arr _) | some (.obj _) => rfl
  | some (.str value) =>
    rw [boundedIdentityScalar]
    split
    · rename_i h
      exact if_pos h
    · rfl

variable {keys : List String}

theorem boundedIdentityScalars_congr {source source' : Fields}
    (h : ∀ key ∈ keys, boundedIdentityScalar (Dict.lookupIn (text key) source) =
      boundedIdentityScalar (Dict.lookupIn (text key) source')) :
    boundedIdentityScalars source keys = boundedIdentityScalars source' keys :=
  List.filterMap_congr fun key hkey => by rw [h key hkey]

theorem boundedIdentityScalars_again (source : Fields) (keys : List String) :
    boundedIdentityScalars (boundedIdentityScalars source keys) keys = boundedIdentityScalars source keys :=
  boundedIdentityScalars_congr fun key hkey => by rw [lookupIn_bounded, if_pos hkey, boundedIdentityScalar_again]

theorem lookupIn_truncate (limit : Nat) (k : Text) : ∀ fields : Fields,
    Dict.lookupIn k (truncateFields limit fields) = (Dict.lookupIn k fields).map (truncateStringLeaves limit)
  | [] => rfl
  | (k', v) :: fields => by
    rw [truncateFields, Dict.lookupIn, Dict.lookupIn, lookupIn_truncate limit k fields]
    split <;> rfl

theorem boundedIdentityScalar_truncate (h : maxPreservedEvidenceScalarChars ≤ limit) (v : Option Payload) :
    boundedIdentityScalar (v.map (truncateStringLeaves limit)) = boundedIdentityScalar v := by
  match v with
  | none | some .null | some (.bool _) | some (.number _) | some (.arr _) | some (.obj _) => rfl
  | some (.str value) =>
    rw [Option.map_some, truncateStringLeaves, truncatedString]
    split
    · rfl
    rename_i hlong
    have hmarker : 0 < evidenceTruncationMarker.length := by decide
    rw [boundedIdentityScalar, boundedIdentityScalar, if_neg, if_neg]
    · omega
    · simp only [List.length_append, List.length_take]
      omega

variable {clipped : Fields} {path : String}

theorem nestedIdentityScalars_truncate (h : maxPreservedEvidenceScalarChars ≤ limit) (hpath : Dict.lookupIn (text path) clipped = (Dict.lookupIn (text path) payload).map (truncateStringLeaves limit))
    (keys : List String) : nestedIdentityScalars clipped path keys = nestedIdentityScalars payload path keys := by
  unfold nestedIdentityScalars
  rw [hpath]
  match Dict.lookupIn (text path) payload with
  | none | some .null | some (.bool _) | some (.number _) | some (.arr _) | some (.str _) => rfl
  | some (.obj nested) =>
    have hnested : boundedIdentityScalars (truncateFields limit nested) keys = boundedIdentityScalars nested keys :=
      boundedIdentityScalars_congr fun key _ => by rw [lookupIn_truncate, boundedIdentityScalar_truncate h]
    simp only [Option.map_some, truncateStringLeaves, hnested]

theorem identity_clippedContent (payload : Fields) (originalBytes : Nat) (h : maxPreservedEvidenceScalarChars ≤ limit) :
    preservedEvidenceIdentity (clippedContent payload originalBytes limit) = preservedEvidenceIdentity payload := by
  have hlookup (key : String) (h1 : "originalBytes" ≠ key) (h2 : "arEvidenceContentTruncated" ≠ key) :
      Dict.lookupIn (text key) (clippedContent payload originalBytes limit) =
        (Dict.lookupIn (text key) payload).map (truncateStringLeaves limit) := by
    rw [clippedContent, Dict.lookupIn_setIn, if_neg (text_injective.ne h1), Dict.lookupIn_setIn, if_neg (text_injective.ne h2),
      lookupIn_truncate]
  have htop : ∀ key ∈ topLevelIdentityKeys, "originalBytes" ≠ key ∧ "arEvidenceContentTruncated" ≠ key := by decide
  unfold preservedEvidenceIdentity
  have hscalars : boundedIdentityScalars (clippedContent payload originalBytes limit) topLevelIdentityKeys =
      boundedIdentityScalars payload topLevelIdentityKeys :=
    boundedIdentityScalars_congr fun key hkey => by
      rw [hlookup key (htop key hkey).1 (htop key hkey).2, boundedIdentityScalar_truncate h]
  rw [nestedIdentityScalars_truncate h (hlookup "message" (by decide) (by decide)),
    nestedIdentityScalars_truncate h (hlookup "turn" (by decide) (by decide)), hscalars]

/-- What an envelope has under a key that is none of its own. -/
theorem lookupIn_envelope (payload : Fields) (originalBytes : Nat) (preview : Text) {key : String}
    (h : key ∉ ["arEvidenceTruncated", "originalBytes", "preview"]) :
    Dict.lookupIn (text key) (truncationEnvelope payload originalBytes preview) =
      Dict.lookupIn (text key) (preservedEvidenceIdentity payload) := by
  have hne : ∀ own ∈ ["arEvidenceTruncated", "originalBytes", "preview"], text own ≠ text key :=
    fun own hown he => h (text_injective he ▸ hown)
  rw [truncationEnvelope, lookupIn_append, Dict.lookupIn, if_neg (hne _ (by simp)), Dict.lookupIn, if_neg (hne _ (by simp)),
    Dict.lookupIn, if_neg (hne _ (by simp))]
  rfl

theorem lookupIn_nested (payload : Fields) (path key : String) (keys : List String) :
    Dict.lookupIn (text key) (nestedIdentityScalars payload path keys) =
      if path = key then (nestedIdentityScalars payload path keys).head?.map Prod.snd else none := by
  unfold nestedIdentityScalars
  split
  · split
    · split <;> rfl
    rw [Dict.lookupIn]
    by_cases he : path = key
    · rw [if_pos (congrArg text he), if_pos he]
      rfl
    · rw [if_neg fun h => he (text_injective h), if_neg he]
      rfl
  · split <;> rfl

theorem nested_cases (payload : Fields) (path : String) (keys : List String) : nestedIdentityScalars payload path keys = [] ∨
    ∃ nested, (boundedIdentityScalars nested keys).isEmpty = false ∧
      nestedIdentityScalars payload path keys = [(text path, .obj (boundedIdentityScalars nested keys))] := by
  unfold nestedIdentityScalars
  split
  · rename_i nested _
    by_cases hempty : (boundedIdentityScalars nested keys).isEmpty = true
    · exact .inl (if_pos hempty)
    · exact .inr ⟨nested, Bool.eq_false_iff.mpr hempty, if_neg hempty⟩
  · exact .inl rfl

theorem nestedIdentityScalars_again
    (h : Dict.lookupIn (text path) clipped = (nestedIdentityScalars payload path keys).head?.map Prod.snd) :
    nestedIdentityScalars clipped path keys = nestedIdentityScalars payload path keys := by
  rcases nested_cases payload path keys with hnone | ⟨nested, hsome, hnested⟩
  · rw [hnone] at h ⊢
    rw [nestedIdentityScalars, h]
    rfl
  rw [hnested] at h ⊢
  rw [nestedIdentityScalars, h]
  simp only [List.head?_cons, Option.map_some, boundedIdentityScalars_again, hsome, Bool.false_eq_true, if_false]

theorem identity_envelope (payload : Fields) (originalBytes : Nat) (preview : Text) :
    preservedEvidenceIdentity (truncationEnvelope payload originalBytes preview) = preservedEvidenceIdentity payload := by
  have htop : ∀ key ∈ topLevelIdentityKeys,
      key ∉ ["arEvidenceTruncated", "originalBytes", "preview"] ∧ "message" ≠ key ∧ "turn" ≠ key := by decide
  have hmessage : "message" ∉ topLevelIdentityKeys := by decide
  have hturn : "turn" ∉ topLevelIdentityKeys := by decide
  have hfields (key : String) : Dict.lookupIn (text key) (preservedEvidenceIdentity payload) =
      (Dict.lookupIn (text key) (boundedIdentityScalars payload topLevelIdentityKeys)).or
        ((Dict.lookupIn (text key) (nestedIdentityScalars payload "message" ["stopReason"])).or
          (Dict.lookupIn (text key) (nestedIdentityScalars payload "turn" ["id", "status"]))) := by
    rw [preservedEvidenceIdentity, lookupIn_append, lookupIn_append]
  have hscalars : boundedIdentityScalars (truncationEnvelope payload originalBytes preview) topLevelIdentityKeys =
      boundedIdentityScalars payload topLevelIdentityKeys := by
    apply boundedIdentityScalars_congr
    intro key hkey
    obtain ⟨hown, hm, ht⟩ := htop key hkey
    rw [lookupIn_envelope payload originalBytes preview hown, hfields, lookupIn_bounded, if_pos hkey, lookupIn_nested, if_neg hm,
      lookupIn_nested, if_neg ht, Option.or_none, Option.or_none, boundedIdentityScalar_again]
  have hmessages : nestedIdentityScalars (truncationEnvelope payload originalBytes preview) "message" ["stopReason"] =
      nestedIdentityScalars payload "message" ["stopReason"] := by
    apply nestedIdentityScalars_again
    rw [lookupIn_envelope payload originalBytes preview (by decide), hfields, lookupIn_bounded, if_neg hmessage, lookupIn_nested,
      if_pos rfl, lookupIn_nested, if_neg (by decide), Option.or_none]
    rfl
  have hturns : nestedIdentityScalars (truncationEnvelope payload originalBytes preview) "turn" ["id", "status"] =
      nestedIdentityScalars payload "turn" ["id", "status"] := by
    apply nestedIdentityScalars_again
    rw [lookupIn_envelope payload originalBytes preview (by decide), hfields, lookupIn_bounded, if_neg hturn, lookupIn_nested,
      if_neg (by decide), lookupIn_nested, if_pos rfl]
    rfl
  rw [preservedEvidenceIdentity, hscalars, hmessages, hturns]
  rfl

theorem identity_candidates (payload : Fields) (originalBytes : Nat) :
    ∀ c ∈ candidates payload originalBytes, preservedEvidenceIdentity c = preservedEvidenceIdentity payload := by
  intro c hc
  rcases List.mem_append.mp hc with hc | hc
  · obtain ⟨limit, hlimit, rfl⟩ := List.mem_map.mp hc
    have hbound : ∀ limit ∈ contentTruncationLimits, maxPreservedEvidenceScalarChars ≤ limit := by decide
    exact identity_clippedContent payload originalBytes (hbound limit hlimit)
  · obtain ⟨preview, -, rfl⟩ := List.mem_map.mp hc
    exact identity_envelope payload originalBytes preview

/-! ## The contract -/

theorem nil_mem_previews : ∀ {n : Nat} {preview : Text}, preview.length < 2 ^ n → [] ∈ previews (n + 1) preview
  | 0, preview, h => by
    have hnil : preview = [] := List.length_eq_zero_iff.mp (by simpa using h)
    rw [previews, hnil]
    exact List.mem_cons_self
  | n + 1, preview, h => by
    rw [previews]
    refine List.mem_cons_of_mem _ (nil_mem_previews ?_)
    rw [List.length_take, Nat.pow_succ] at *
    omega

theorem firstFitting_spec (maxBytes : Int) : ∀ {cs : List Fields}, (∀ c ∈ cs, cleanFields c = true) →
    (∃ c ∈ cs, firstFitting maxBytes cs = .ok (some c) ∧ ∃ size, serializedSize c = some size ∧ size ≤ maxBytes) ∨
    (firstFitting maxBytes cs = .ok none ∧ ∀ c ∈ cs, ∀ size, serializedSize c = some size → maxBytes < size)
  | [], _ => .inr ⟨rfl, fun _ h => by cases h⟩
  | c :: rest, h => by
    cases hsize : serializedSize c with
    | none =>
      rw [serializedSize_eq_none, h c (by simp)] at hsize
      cases hsize
    | some size =>
      simp only [firstFitting, hsize]
      by_cases hfits : (size : Int) ≤ maxBytes
      · rw [if_pos hfits]
        exact .inl ⟨c, by simp, rfl, size, hsize, hfits⟩
      rw [if_neg hfits]
      rcases firstFitting_spec maxBytes fun d hd => h d (List.mem_cons_of_mem _ hd) with
        ⟨d, hd, hfirst, hfit⟩ | ⟨hfirst, hall⟩
      · exact .inl ⟨d, List.mem_cons_of_mem _ hd, hfirst, hfit⟩
      refine .inr ⟨hfirst, fun d hd => ?_⟩
      rcases List.mem_cons.mp hd with rfl | hd
      · intro size' hsize'
        rw [hsize] at hsize'
        obtain rfl := Option.some.inj hsize'
        omega
      · exact hall d hd

def BelowEnvelope (payload : Fields) (maxBytes : Int) : Prop :=
  maxBytes < 1 ∨ 2 ^ 63 ≤ (dumps (.obj payload)).length ∨
    ∀ originalBytes size, serializedSize payload = some originalBytes →
      serializedSize (truncationEnvelope payload originalBytes []) = some size → maxBytes < size

def ClipContract (payload : Fields) (maxBytes : Int) : Prop :=
  match clipEvidencePayload payload maxBytes with
  | .ok clipped =>
    (∃ size, serializedSize clipped = some size ∧ size ≤ maxBytes) ∧
      ((∃ size, serializedSize payload = some size ∧ size ≤ maxBytes) → clipped = payload) ∧
      preservedEvidenceIdentity clipped = preservedEvidenceIdentity payload
  | .error (.control _) => BelowEnvelope payload maxBytes
  | .error .unicodeEncodeError => False

/-- **The clip.** Its contract holds exactly of a payload without a lone surrogate, or where the budget is refused. -/
theorem clip_contract (payload : Fields) (maxBytes : Int) :
    ClipContract payload maxBytes ↔ maxBytes < 1 ∨ clean (.obj payload) = true := by
  unfold ClipContract clipEvidencePayload
  by_cases hpositive : maxBytes < 1
  · rw [if_pos hpositive]
    exact ⟨fun _ => .inl hpositive, fun _ => .inl hpositive⟩
  rw [if_neg hpositive]
  cases hclean : cleanFields payload with
  | false =>
    rw [serializedSize_eq_none.mpr hclean, clean, hclean]
    simpa using hpositive
  | true =>
    rw [clean, hclean]
    refine iff_of_true ?_ (.inr rfl)
    cases hsize : serializedSize payload with
    | none =>
      rw [serializedSize_eq_none, hclean] at hsize
      cases hsize
    | some originalBytes =>
      dsimp only
      by_cases hfits : (originalBytes : Int) ≤ maxBytes
      · rw [if_pos hfits]
        exact ⟨⟨originalBytes, hsize, hfits⟩, fun _ => rfl, rfl⟩
      rw [if_neg hfits]
      rcases firstFitting_spec maxBytes (clean_candidates hclean originalBytes) with
        ⟨c, hc, hfirst, hfit⟩ | ⟨hfirst, hall⟩
      · rw [hfirst]
        refine ⟨hfit, fun ⟨size, hsame, hle⟩ => ?_, identity_candidates payload originalBytes c hc⟩
        obtain rfl := Option.some.inj hsame
        exact absurd hle hfits
      rw [hfirst]
      by_cases hlong : 2 ^ 63 ≤ (dumps (.obj payload)).length
      · exact .inr (.inl hlong)
      refine .inr (.inr fun original size horiginal henvelope => ?_)
      obtain rfl := Option.some.inj (horiginal.symm.trans hsize)
      refine hall _ (List.mem_append_right _ (List.mem_map_of_mem ?_)) size henvelope
      exact nil_mem_previews (Nat.lt_of_not_le hlong)

theorem surrogate_unclipped : ¬ ∀ payload maxBytes, ClipContract payload maxBytes := by
  intro h
  rcases (clip_contract [(text "text", .str [0xD83D])] 1024).mp (h _ _) with hlow | hclean
  · omega
  · exact absurd hclean (by decide)

end AgentsRemember.Evidence
