import Mathlib.Data.List.Basic
import Mathlib.Algebra.Order.Ring.Nat
import Mathlib.Tactic.Ring

/-!
# Packed records

A number is packed into a fixed number of bytes, the least one first. A record
is packed number by number after a format, and records stand one behind the
other without separators.
-/

namespace Lib

namespace Packing

abbrev Bytes := List UInt8

def bytesOf : Nat → Nat → Bytes
  | 0, _ => []
  | width + 1, n => UInt8.ofNat (n % 256) :: bytesOf width (n / 256)

def numberOf : Bytes → Nat
  | [] => 0
  | b :: bs => b.toNat + 256 * numberOf bs

abbrev Format := List Nat

def size (format : Format) : Nat := format.sum

/-- No value stands for the error of a number that is too big for its width. -/
def pack : Format → List Nat → Option Bytes
  | [], [] => some []
  | width :: format, n :: ns => if n < 256 ^ width then (pack format ns).map (bytesOf width n ++ ·) else none
  | _, _ => none

def unpack : Format → Bytes → List Nat
  | [], _ => []
  | width :: format, bs => numberOf (bs.take width) :: unpack format (bs.drop width)

def records (format : Format) (payload : Bytes) : List (List Nat) :=
  (List.range (payload.length / size format)).map fun i => unpack format (payload.drop (i * size format))

theorem length_bytesOf : ∀ width n : Nat, (bytesOf width n).length = width
  | 0, _ => rfl
  | width + 1, n => by rw [bytesOf, List.length_cons, length_bytesOf width]

theorem numberOf_bytesOf : ∀ {width n : Nat}, n < 256 ^ width → numberOf (bytesOf width n) = n
  | 0, n, h => by
    rw [Nat.pow_zero, Nat.lt_one_iff] at h
    rw [h]
    rfl
  | width + 1, n, h => by
    have hrest : n / 256 < 256 ^ width := Nat.div_lt_of_lt_mul (by rwa [Nat.pow_succ'] at h)
    have hlow : (UInt8.ofNat (n % 256)).toNat = n % 256 := by
      rw [UInt8.toNat_ofNat']
      omega
    rw [bytesOf, numberOf, numberOf_bytesOf hrest, hlow]
    exact Nat.mod_add_div n 256

attribute [local simp] pack

theorem length_pack : ∀ {format : Format} {ns : List Nat} {bs : Bytes}, pack format ns = some bs → bs.length = size format
  | [], [], bs, h => by
    cases h
    rfl
  | [], _ :: _, bs, h => by cases h
  | _ :: _, [], bs, h => by cases h
  | width :: format, n :: ns, bs, h => by
    rw [pack] at h
    split at h
    · obtain ⟨rest, hrest, rfl⟩ := Option.map_eq_some_iff.mp h
      rw [List.length_append, length_bytesOf, length_pack hrest, size, size, List.sum_cons]
    · cases h

theorem unpack_pack : ∀ {format : Format} {ns : List Nat} {bs : Bytes}, pack format ns = some bs → ∀ rest : Bytes,
    unpack format (bs ++ rest) = ns
  | [], [], bs, _, rest => rfl
  | [], _ :: _, bs, h, _ => by cases h
  | _ :: _, [], bs, h, _ => by cases h
  | width :: format, n :: ns, bs, h, rest => by
    rw [pack] at h
    split at h
    · rename_i hn
      obtain ⟨tail, htail, rfl⟩ := Option.map_eq_some_iff.mp h
      have hlen := length_bytesOf width n
      rw [unpack, List.append_assoc, List.take_left' hlen, List.drop_left' hlen, numberOf_bytesOf hn, unpack_pack htail rest]
    · cases h

theorem pack_isSome : ∀ {format : Format} {ns : List Nat}, List.Forall₂ (fun width n => n < 256 ^ width) format ns →
    (pack format ns).isSome
  | [], [], _ => rfl
  | _ :: _, _ :: _, .cons hn hrest => by
    rw [pack, if_pos hn, Option.isSome_map]
    exact pack_isSome hrest

variable {format : Format}

theorem length_flatten_packed : ∀ {rows : List (List Nat)} {packed : List Bytes},
    rows.mapM (pack format) = some packed → packed.flatten.length = rows.length * size format
  | [], packed, h => by
    cases h
    rw [List.length_nil, Nat.zero_mul]
    rfl
  | row :: rows, packed, h => by
    rw [List.mapM_cons] at h
    obtain ⟨bs, hbs, h⟩ := Option.bind_eq_some_iff.mp h
    obtain ⟨tail, htail, h⟩ := Option.bind_eq_some_iff.mp h
    cases h
    rw [List.flatten_cons, List.length_append, length_pack hbs, length_flatten_packed htail, List.length_cons]
    ring

theorem records_packed (hsize : 0 < size format) : ∀ {rows : List (List Nat)} {packed : List Bytes},
    rows.mapM (pack format) = some packed → records format packed.flatten = rows
  | [], packed, h => by
    have hnil : packed = [] := (Option.some.inj h).symm
    rw [hnil, records, List.flatten_nil, List.length_nil, Nat.zero_div]
    rfl
  | row :: rows, packed, h => by
    have hlen := length_flatten_packed h
    rw [List.mapM_cons] at h
    obtain ⟨bs, hbs, h⟩ := Option.bind_eq_some_iff.mp h
    obtain ⟨tail, htail, h⟩ := Option.bind_eq_some_iff.mp h
    cases h
    have hrest := records_packed hsize htail
    rw [records, length_flatten_packed htail, Nat.mul_div_cancel _ hsize] at hrest
    rw [records, hlen, List.length_cons, Nat.mul_div_cancel _ hsize, List.range_succ_eq_map, List.map_cons, List.map_map,
      Nat.zero_mul, List.drop_zero, List.flatten_cons, unpack_pack hbs]
    congr 1
    refine (List.map_congr_left fun i _ => ?_).trans hrest
    have hdrop : (bs ++ tail.flatten).drop ((i + 1) * size format) = tail.flatten.drop (i * size format) := by
      have hle : bs.length ≤ (i + 1) * size format := by
        rw [length_pack hbs]
        exact Nat.le_mul_of_pos_left _ (Nat.succ_pos i)
      rw [List.drop_append, List.drop_eq_nil_of_le hle, List.nil_append, length_pack hbs, Nat.succ_mul,
        Nat.add_sub_cancel]
    exact congrArg (unpack format) hdrop

end Packing

end Lib
