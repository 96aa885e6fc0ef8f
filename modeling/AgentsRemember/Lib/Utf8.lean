import Mathlib.Data.List.Basic

/-!
# UTF-8

Text as bytes and back. `decode` is strict: it takes nothing but what `encode`
writes.
-/

namespace Lib

namespace Utf8

def encode (cs : List Char) : List UInt8 := cs.flatMap String.utf8EncodeChar

def decodeFuel : Nat → List UInt8 → Option (List Char)
  | _, [] => some []
  | 0, _ => none
  | n + 1, bs =>
    match ByteArray.utf8DecodeChar? bs.toByteArray 0 with
    | none => none
    | some c => (decodeFuel n (bs.drop c.utf8Size)).map (c :: ·)

def decode (bs : List UInt8) : Option (List Char) := decodeFuel bs.length bs

@[simp] theorem encode_nil : encode [] = [] := rfl

@[simp] theorem encode_cons (c : Char) (cs : List Char) : encode (c :: cs) = String.utf8EncodeChar c ++ encode cs := by
  simp [encode]

@[simp] theorem encode_append (cs ds : List Char) : encode (cs ++ ds) = encode cs ++ encode ds := by
  simp [encode]

theorem utf8DecodeChar?_encode_cons (c : Char) (bs : List UInt8) :
    ByteArray.utf8DecodeChar? (String.utf8EncodeChar c ++ bs).toByteArray 0 = some c := by
  rw [List.toByteArray_append]
  exact ByteArray.utf8DecodeChar?_utf8EncodeChar_append

theorem decodeFuel_encode : ∀ (cs : List Char) (n : Nat), (encode cs).length ≤ n → decodeFuel n (encode cs) = some cs
  | [], n, _ => by cases n <;> rfl
  | c :: cs, n, h => by
    have hlen := String.length_utf8EncodeChar c
    have hpos := c.utf8Size_pos
    rw [encode_cons, List.length_append] at h
    obtain ⟨m, rfl⟩ : ∃ m, n = m + 1 := ⟨n - 1, by omega⟩
    have hdrop : (String.utf8EncodeChar c ++ encode cs).drop c.utf8Size = encode cs := List.drop_left' hlen
    obtain ⟨b, bs, hb⟩ := List.exists_cons_of_ne_nil (String.utf8EncodeChar_ne_nil (c := c))
    have hchar := utf8DecodeChar?_encode_cons c (encode cs)
    rw [encode_cons]
    rw [hb, List.cons_append] at hchar hdrop ⊢
    simp only [decodeFuel, hchar, hdrop, decodeFuel_encode cs m (by omega), Option.map_some]

theorem decode_encode (cs : List Char) : decode (encode cs) = some cs :=
  decodeFuel_encode cs _ (Nat.le_refl _)

theorem eq_encode_of_decodeFuel : ∀ (n : Nat) (bs : List UInt8) (cs : List Char), decodeFuel n bs = some cs → bs = encode cs
  | n, [], cs, h => by
    have hcs : some [] = some cs := by
      cases n <;> exact h
    cases hcs
    rfl
  | n + 1, b :: bs, cs, h => by
    rw [decodeFuel.eq_3 _ _ (by simp)] at h
    cases hchar : ByteArray.utf8DecodeChar? (b :: bs).toByteArray 0 with
    | none => simp [hchar] at h
    | some c =>
      simp only [hchar, Option.map_eq_some_iff] at h
      obtain ⟨ds, hds, rfl⟩ := h
      have ih := eq_encode_of_decodeFuel n _ ds hds
      obtain ⟨tail, htail⟩ := ByteArray.exists_of_utf8DecodeChar?_eq_some hchar
      have hbytes : b :: bs = String.utf8EncodeChar c ++ tail.data.toList := by
        have h := congrArg (fun a => a.data.toList) htail
        simpa using h
      have hdrop : (b :: bs).drop c.utf8Size = tail.data.toList := by
        rw [hbytes]
        exact List.drop_left' (String.length_utf8EncodeChar c)
      rw [hdrop] at ih
      rw [encode_cons, ← ih, hbytes]

variable {cs : List Char}

theorem decode_eq_some {bs : List UInt8} : decode bs = some cs ↔ bs = encode cs := by
  constructor
  · exact eq_encode_of_decodeFuel _ _ _
  · rintro rfl
    exact decode_encode cs

theorem decode_encode_append (cs : List Char) (bs : List UInt8) : decode (encode cs ++ bs) = (decode bs).map (cs ++ ·) := by
  cases h : decode bs with
  | some ds =>
    rw [decode_eq_some.mp h, ← encode_append, decode_encode]
    rfl
  | none =>
    rw [Option.map_none]
    by_contra hne
    obtain ⟨es, hes⟩ := Option.ne_none_iff_exists'.mp hne
    have henc := decode_eq_some.mp hes
    clear hne hes
    induction cs generalizing es with
    | nil =>
      rw [encode_nil, List.nil_append] at henc
      rw [decode_eq_some.mpr henc] at h
      cases h
    | cons c cs ih =>
      cases es with
      | nil =>
        rw [encode_cons, encode_nil] at henc
        exact String.utf8EncodeChar_ne_nil (List.append_eq_nil_iff.mp (List.append_eq_nil_iff.mp henc).1).1
      | cons d es =>
        have hc := utf8DecodeChar?_encode_cons c (encode cs ++ bs)
        have hd := utf8DecodeChar?_encode_cons d (encode es)
        rw [encode_cons, encode_cons, List.append_assoc] at henc
        rw [henc, hd] at hc
        cases hc
        exact ih es (List.append_cancel_left henc)

theorem encode_injective {ds : List Char} (h : encode cs = encode ds) : cs = ds := by
  have hd := decode_encode cs
  rw [h, decode_encode] at hd
  exact (Option.some.inj hd).symm

theorem mem_encodeChar {c : Char} {b : UInt8} (hb : b ∈ String.utf8EncodeChar c) :
    (c.toNat < 128 ∧ b.toNat = c.toNat) ∨ (128 ≤ c.toNat ∧ 128 ≤ b.toNat) := by
  have hv : c.val.toNat = c.toNat := rfl
  have hsize : UInt8.size = 256 := rfl
  unfold String.utf8EncodeChar at hb
  simp only [hv] at hb
  split at hb
  · rw [List.mem_singleton] at hb
    subst hb
    exact .inl ⟨by omega, UInt8.toNat_ofNat_of_lt' (by omega)⟩
  refine .inr ⟨by omega, ?_⟩
  split at hb
  · simp only [List.mem_cons, List.not_mem_nil, or_false] at hb
    rcases hb with rfl | rfl <;> rw [UInt8.toNat_ofNat_of_lt' (by omega)] <;> omega
  split at hb
  · simp only [List.mem_cons, List.not_mem_nil, or_false] at hb
    rcases hb with rfl | rfl | rfl <;> rw [UInt8.toNat_ofNat_of_lt' (by omega)] <;> omega
  · simp only [List.mem_cons, List.not_mem_nil, or_false] at hb
    rcases hb with rfl | rfl | rfl | rfl <;> rw [UInt8.toNat_ofNat_of_lt' (by omega)] <;> omega

theorem newline_mem_encode : (10 : UInt8) ∈ encode cs ↔ '\n' ∈ cs := by
  constructor
  · intro h
    obtain ⟨c, hc, hb⟩ := List.mem_flatMap.mp h
    rcases mem_encodeChar hb with ⟨-, hn⟩ | ⟨-, hn⟩
    · have : c = '\n' := Char.toNat_inj.mp hn.symm
      rwa [this] at hc
    · exact absurd hn (by decide)
  · intro h
    exact List.mem_flatMap.mpr ⟨'\n', h, by decide⟩

end Utf8

end Lib
