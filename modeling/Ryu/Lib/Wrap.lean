import Mathlib.Data.Nat.Basic
import Mathlib.Tactic.Ring

/-! # Counters that wrap

Two values of a counter that grows, and what is left of them modulo `m`. As long as the counter
does not wrap between them the residues are as far apart as the values, and if they are less than
`m` apart, the residues are in order only then.
-/

namespace Ryu

variable {m u v : ℕ}

/-- The counter has wrapped as often at `u` as at `v`. -/
def SameRound (m u v : ℕ) : Prop := u / m = v / m

instance (m u v : ℕ) : Decidable (SameRound m u v) := inferInstanceAs (Decidable (u / m = v / m))

theorem SameRound.mod_eq (h : SameRound m u v) (huv : u ≤ v) : v % m = u % m + (v - u) := by
  have hu := Nat.div_add_mod u m
  have hv := Nat.div_add_mod v m
  rw [SameRound] at h
  rw [← h] at hv
  omega

theorem sameRound_of_mod_le (huv : u ≤ v) (hlt : v < u + m) (h : u % m ≤ v % m) :
    SameRound m u v := by
  have hu := Nat.div_add_mod u m
  have hv := Nat.div_add_mod v m
  have hle : u / m ≤ v / m := Nat.div_le_div_right huv
  refine le_antisymm hle (not_lt.mp fun hc => ?_)
  have hmul : m * (u / m) + m ≤ m * (v / m) := by
    calc m * (u / m) + m = m * (u / m + 1) := by ring
      _ ≤ m * (v / m) := Nat.mul_le_mul_left m hc
  omega

end Ryu
