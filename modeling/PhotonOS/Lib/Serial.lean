import Mathlib.Data.BitVec

/-!
Serial numbers: fixed-width counters that wrap, compared by the sign of their
difference.
-/

namespace Serial

variable {width : Nat}

def lt (left right : BitVec width) : Bool := decide ((left - right).toInt < 0)

def le (left right : BitVec width) : Bool := decide ((left - right).toInt ≤ 0)

def gt (left right : BitVec width) : Bool := decide ((left - right).toInt > 0)

def ge (left right : BitVec width) : Bool := decide ((left - right).toInt ≥ 0)

theorem lt_iff (left right : BitVec width) : lt left right = true ↔ 2 ^ width ≤ 2 * (left - right).toNat := by
  rw [lt, decide_eq_true_eq, BitVec.toInt_eq_toNat_cond]
  split <;> omega

theorem le_iff (left right : BitVec width) :
    le left right = true ↔ left = right ∨ 2 ^ width ≤ 2 * (left - right).toNat := by
  have zero : (left - right).toNat = 0 ↔ left = right := by
    rw [← sub_eq_zero (a := left), ← BitVec.toNat_inj]
    simp
  rw [le, decide_eq_true_eq, BitVec.toInt_eq_toNat_cond, ← zero]
  split <;> omega

theorem gt_iff_not_le {left right : BitVec width} : gt left right = !le left right := by
  simp only [gt, le, ← decide_not, Int.not_le]

theorem ge_iff_not_lt {left right : BitVec width} : ge left right = !lt left right := by
  simp only [ge, lt, ← decide_not, Int.not_lt]

@[simp] theorem lt_irrefl (value : BitVec width) : lt value value = false := by
  simp [lt]

theorem toNat_offset_sub {base : BitVec width} {left right : Nat}
    (leftBound : left < 2 ^ width) (rightBound : right < 2 ^ width) :
    ((base + BitVec.ofNat width left) - (base + BitVec.ofNat width right)).toNat =
      if right ≤ left then left - right else 2 ^ width + left - right := by
  rw [add_sub_add_left_eq_sub, BitVec.toNat_sub, BitVec.toNat_ofNat, BitVec.toNat_ofNat,
    Nat.mod_eq_of_lt leftBound, Nat.mod_eq_of_lt rightBound]
  split
  · have regroup : 2 ^ width - right + left = 2 ^ width + (left - right) := by omega
    rw [regroup, Nat.add_mod_left, Nat.mod_eq_of_lt (by omega)]
  · rw [Nat.mod_eq_of_lt (by omega)]
    omega

theorem offset_inj (base : BitVec width) (left right : Nat)
    (leftBound : left < 2 ^ width) (rightBound : right < 2 ^ width) :
    base + BitVec.ofNat width left = base + BitVec.ofNat width right ↔ left = right := by
  rw [BitVec.add_right_inj, ← BitVec.toNat_inj, BitVec.toNat_ofNat, BitVec.toNat_ofNat,
    Nat.mod_eq_of_lt leftBound, Nat.mod_eq_of_lt rightBound]

theorem lt_offset (base : BitVec width) (left right : Nat)
    (leftBound : 2 * left < 2 ^ width) (rightBound : 2 * right < 2 ^ width) :
    lt (base + BitVec.ofNat width left) (base + BitVec.ofNat width right) = true ↔ left < right := by
  rw [lt_iff, toNat_offset_sub (by omega) (by omega)]
  split <;> omega

theorem le_offset (base : BitVec width) (left right : Nat)
    (leftBound : 2 * left < 2 ^ width) (rightBound : 2 * right < 2 ^ width) :
    le (base + BitVec.ofNat width left) (base + BitVec.ofNat width right) = true ↔ left ≤ right := by
  rw [le_iff, toNat_offset_sub (by omega) (by omega),
    offset_inj base left right (by omega) (by omega)]
  split <;> omega

theorem offset_sub_toNat (base value : BitVec width) : base + BitVec.ofNat width (value - base).toNat = value := by
  rw [BitVec.ofNat_toNat, BitVec.setWidth_eq, add_sub_cancel]

theorem offset_add (base : BitVec width) (first second : Nat) :
    base + BitVec.ofNat width first + BitVec.ofNat width second = base + BitVec.ofNat width (first + second) := by
  rw [BitVec.ofNat_add, BitVec.add_assoc]

end Serial
