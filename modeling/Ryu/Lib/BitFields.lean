import Mathlib.Data.Nat.Bitwise
import Mathlib.Tactic.Ring

/-! # Numbers in one word

A number in front of the `n` low bits that another one takes up, and the way back.
-/

namespace Ryu.BitFields

variable {a b m n : ℕ}

theorem shiftLeft_or (h : b < 2 ^ n) : a <<< n ||| b = a * 2 ^ n + b := by
  rw [← Nat.shiftLeft_add_eq_or_of_lt h, Nat.shiftLeft_eq]

/-- The number in front. -/
theorem shiftRight_shiftLeft_or (h : b < 2 ^ n) : (a <<< n ||| b) >>> n = a := by
  rw [shiftLeft_or h, Nat.shiftRight_eq_div_pow, mul_comm, Nat.mul_add_div (Nat.two_pow_pos n),
    Nat.div_eq_of_lt h, Nat.add_zero]

/-- The number in the low bits. -/
theorem shiftLeft_or_and (h : b < 2 ^ n) : (a <<< n ||| b) &&& (2 ^ n - 1) = b := by
  rw [shiftLeft_or h, Nat.and_two_pow_sub_one_eq_mod, mul_comm, Nat.mul_add_mod,
    Nat.mod_eq_of_lt h]

theorem shiftLeft_or_lt_iff (h : b < 2 ^ n) : a <<< n ||| b < 2 ^ (m + n) ↔ a < 2 ^ m := by
  rw [shiftLeft_or h, pow_add]
  constructor
  · intro hlt
    exact lt_of_mul_lt_mul_right ((Nat.le_add_right _ b).trans_lt hlt) (Nat.zero_le _)
  · intro ha
    calc
      a * 2 ^ n + b < a * 2 ^ n + 2 ^ n := by omega
      _ = (a + 1) * 2 ^ n := by ring
      _ ≤ 2 ^ m * 2 ^ n := Nat.mul_le_mul_right _ ha

end Ryu.BitFields
