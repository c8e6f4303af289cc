import Mathlib.Tactic.Ring

/-! Big-endian fields of a byte string. -/

namespace Bytes

def toBytes : Nat → Nat → List UInt8
  | 0, _ => []
  | count + 1, value => UInt8.ofNat (value / 256 ^ count) :: toBytes count value

def ofBytes (bytes : List UInt8) : Nat :=
  bytes.foldl (fun total byte => total * 256 + byte.toNat) 0

/-- The number stored in the `count` bytes of `bytes` that start at `offset`. -/
def field (bytes : List UInt8) (offset count : Nat) : Nat :=
  ofBytes ((bytes.drop offset).take count)

@[simp] theorem toBytes_length (count value : Nat) : (toBytes count value).length = count := by
  induction count with
  | zero => rfl
  | succ count ih => simp only [toBytes, List.length_cons, ih]

variable {count value width offset : Nat} {after : List UInt8}

theorem foldl_toBytes (total : Nat) : (toBytes count value).foldl (fun total byte => total * 256 + byte.toNat) total =
      total * 256 ^ count + value % 256 ^ count := by
  induction count generalizing total with
  | zero => simp [toBytes, Nat.mod_one]
  | succ count ih =>
    have split : value % 256 ^ (count + 1) = value / 256 ^ count % 256 * 256 ^ count + value % 256 ^ count := by
      rw [Nat.pow_succ, Nat.mod_mul]
      ring
    simp only [toBytes, List.foldl_cons, ih, UInt8.toNat_ofNat']
    rw [split]
    ring

theorem foldl_lt (bytes : List UInt8) (total : Nat) :
    bytes.foldl (fun total byte => total * 256 + byte.toNat) total < (total + 1) * 256 ^ bytes.length := by
  induction bytes generalizing total with
  | nil => simp
  | cons byte bytes ih =>
    have byteLt := byte.toNat_lt
    calc bytes.foldl _ (total * 256 + byte.toNat) < (total * 256 + byte.toNat + 1) * 256 ^ bytes.length := ih _
      _ ≤ (total + 1) * 256 * 256 ^ bytes.length := Nat.mul_le_mul_right _ (by omega)
      _ = (total + 1) * 256 ^ (byte :: bytes).length := by rw [List.length_cons, Nat.pow_succ]; ring

theorem ofBytes_toBytes : ofBytes (toBytes count value) = value % 256 ^ count := by
  rw [ofBytes, foldl_toBytes, Nat.zero_mul, Nat.zero_add]

theorem field_append {before : List UInt8} (skip : before.length ≤ offset) :
    field (before ++ after) offset count = field after (offset - before.length) count := by
  rw [field, field, List.drop_append, List.drop_eq_nil_of_le skip, List.nil_append]

theorem field_take {bytes : List UInt8} {size : Nat} (inside : offset + count ≤ size) :
    field (bytes.take size) offset count = field bytes offset count := by
  rw [field, field, List.drop_take, List.take_take, Nat.min_eq_left (by omega)]

theorem field_toBytes_append {value : BitVec width} (fits : 2 ^ width = 256 ^ count) :
    field (toBytes count value.toNat ++ after) 0 count = value.toNat := by
  have exactTake : (toBytes count value.toNat ++ after).take count = toBytes count value.toNat := by
    rw [List.take_append_of_le_length (by simp), List.take_of_length_le (by simp)]
  rw [field, List.drop_zero, exactTake, ofBytes_toBytes, ← fits, Nat.mod_eq_of_lt value.isLt]

end Bytes
