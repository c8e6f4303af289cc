import Mathlib.Algebra.Group.Nat.Defs

/-!
One's-complement sums of byte strings: the sum of the big-endian 16-bit words,
and the end-around carry that brings it back to one word without changing it
modulo 65535.
-/

namespace OnesComplement

/-- The sum of the 16-bit words of a byte string, the last one padded with a zero byte. -/
def wordSum : List UInt8 → Nat
  | high :: low :: rest => high.toNat * 256 + low.toNat + wordSum rest
  | [last] => last.toNat * 256
  | [] => 0

theorem wordSum_cons_cons (high low : UInt8) (rest : List UInt8) :
    wordSum (high :: low :: rest) = high.toNat * 256 + low.toNat + wordSum rest := rfl

theorem wordSum_append {left right : List UInt8} (even : left.length % 2 = 0) :
    wordSum (left ++ right) = wordSum left + wordSum right := by
  fun_induction wordSum left with
  | case1 high low rest ih =>
    simp only [List.length_cons] at even
    rw [List.cons_append, List.cons_append, wordSum_cons_cons, ih (by omega), ← Nat.add_assoc]
  | case2 last => cases even
  | case3 => rw [List.nil_append, Nat.zero_add]

theorem wordSum_le (bytes : List UInt8) : wordSum bytes ≤ 65535 * ((bytes.length + 1) / 2) := by
  fun_induction wordSum bytes with
  | case1 high low rest ih =>
    have first := high.toNat_lt
    have second := low.toNat_lt
    simp only [List.length_cons]
    omega
  | case2 last =>
    have bound := last.toNat_lt
    simp only [List.length_cons, List.length_nil]
    omega
  | case3 => exact Nat.zero_le _

def endAround (sum : Nat) : Nat := sum % 2 ^ 16 + sum / 2 ^ 16

variable {sum word : Nat}

theorem endAround_mod : endAround sum % 65535 = sum % 65535 := by
  unfold endAround
  omega

theorem endAround_pos (positive : 0 < sum) : 0 < endAround sum := by
  unfold endAround
  omega

/-- A word is the fold of a positive sum when it is positive and agrees with it modulo 65535. -/
structure FoldOf (word sum : Nat) : Prop where
  positive : 0 < word
  small : word ≤ 65535
  congruent : word % 65535 = sum % 65535

/-- The fold of a sum is all ones exactly when the sum vanishes modulo 65535. -/
theorem FoldOf.all_ones_iff (fold : FoldOf word sum) : word = 65535 ↔ 65535 ∣ sum := by
  obtain ⟨positive, small, congruent⟩ := fold
  omega

/-- Adding the complement of the fold with its bytes exchanged gives a vanishing sum exactly when the
exchange changes nothing, that is when both bytes are equal. -/
theorem FoldOf.exchanged_iff (fold : FoldOf word sum) (high low : Nat)
    (complement : 65535 - word = high * 256 + low) (highByte : high < 256) (lowByte : low < 256) :
    (low * 256 + high ≠ 0 ∧ 65535 ∣ sum + (low * 256 + high)) ↔ 257 ∣ sum ∧ ¬65535 ∣ sum := by
  obtain ⟨positive, small, congruent⟩ := fold
  have shifted : (sum + (low * 256 + high)) % 65535 = (65535 + 255 * low - 255 * high) % 65535 := by omega
  have equal : 65535 ∣ sum + (low * 256 + high) ↔ low = high := by omega
  have split : sum % 257 = word % 257 := by omega
  omega

end OnesComplement
