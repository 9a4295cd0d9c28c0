import Mathlib.Algebra.Order.Ring.Nat
import Mathlib.Data.Nat.ModEq

/-! # Sums with the carry added around

Digits of a number system of base `m` are added, and what is carried out of the digit is added to
it. Such a sum is congruent to the sum of the digits modulo `m - 1`, and zero only if all of them
are, which leaves only one digit for it.
-/

namespace Ryu

/-- What is carried out of the low digit of a number is added to it. -/
def addCarry (m n : ℕ) : ℕ := n % m + n / m

variable {m n k s : ℕ} {l : List ℕ}

theorem addCarry_modEq (m n : ℕ) : addCarry m n ≡ n [MOD m - 1] := by
  have hdiv := Nat.mod_add_div n m
  cases m with
  | zero => simp [addCarry, Nat.ModEq.refl]
  | succ m =>
    have hsum : n = addCarry (m + 1) n + m * (n / (m + 1)) := by
      rw [Nat.add_mul, Nat.one_mul] at hdiv
      rw [addCarry]
      omega
    calc addCarry (m + 1) n ≡ addCarry (m + 1) n + m * (n / (m + 1)) [MOD m] :=
          (Nat.modEq_zero_iff_dvd.mpr ⟨n / (m + 1), rfl⟩).symm.add_left _
      _ = n := hsum.symm

theorem addCarry_eq_zero_iff : addCarry m n = 0 ↔ n = 0 := by
  constructor
  · intro h
    obtain ⟨hmod, hdiv⟩ := Nat.add_eq_zero_iff.mp h
    rw [← Nat.mod_add_div n m, hmod, hdiv, Nat.mul_zero]
  · rintro rfl
    simp [addCarry]

theorem addCarry_add_two_le (h : n < m * m) : addCarry m n + 2 ≤ 2 * m := by
  have hdiv : n / m < m := Nat.div_lt_of_lt_mul h
  have hmod : n % m < m := Nat.mod_lt n (Nat.zero_lt_of_lt hdiv)
  rw [addCarry]
  omega

theorem addCarry_lt (h : n + 2 ≤ 2 * m) : addCarry m n < m := by
  rw [addCarry]
  by_cases hlt : n < m
  · rw [Nat.mod_eq_of_lt hlt, Nat.div_eq_of_lt hlt]
    exact hlt
  · have hsub : n = (n - m) + m := by omega
    rw [hsub, Nat.add_mod_right, Nat.add_div_right _ (by omega), Nat.mod_eq_of_lt (by omega),
      Nat.div_eq_of_lt (by omega)]
    omega

/-- A digit is known by its residue, and by whether it is zero. -/
theorem digit_unique (hk : k < m) (hn : n < m) (h : k ≡ n [MOD m - 1]) (hzero : k = 0 ↔ n = 0) :
    k = n := by
  by_cases hk0 : k = 0
  · rw [hk0, hzero.mp hk0]
  · have hn0 : n ≠ 0 := mt hzero.mpr hk0
    have hpred : k - 1 ≡ n - 1 [MOD m - 1] := by
      apply Nat.ModEq.add_right_cancel' 1
      rwa [Nat.sub_add_cancel (by omega), Nat.sub_add_cancel (by omega)]
    have heq := hpred.eq_of_lt_of_lt (by omega) (by omega)
    omega

theorem foldl_around_modEq (s : ℕ) (l : List ℕ) :
    l.foldl (fun s d => addCarry m (s + d)) s ≡ s + l.sum [MOD m - 1] := by
  induction l generalizing s with
  | nil => exact .refl s
  | cons d l ih =>
    rw [List.foldl_cons, List.sum_cons, ← Nat.add_assoc]
    exact (ih _).trans ((addCarry_modEq m (s + d)).add_right _)

theorem foldl_around_eq_zero_iff :
    l.foldl (fun s d => addCarry m (s + d)) s = 0 ↔ s + l.sum = 0 := by
  induction l generalizing s with
  | nil => rfl
  | cons d l ih =>
    rw [List.foldl_cons, ih, List.sum_cons, Nat.add_eq_zero_iff, addCarry_eq_zero_iff]
    omega

theorem foldl_around_lt (hs : s < m) (hl : ∀ d ∈ l, d < m) :
    l.foldl (fun s d => addCarry m (s + d)) s < m := by
  induction l generalizing s with
  | nil => exact hs
  | cons d l ih =>
    obtain ⟨hd, hl⟩ := List.forall_mem_cons.mp hl
    exact ih (addCarry_lt (by omega)) hl

end Ryu
