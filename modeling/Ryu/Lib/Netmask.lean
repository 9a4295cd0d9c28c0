import Mathlib.Data.Nat.Notation

/-! # Networks

A network is a word with its lower bits cleared. A longer network lies within a shorter one or
apart from it, so two networks meet exactly if one has the other's base.
-/

namespace Ryu

variable {w : ℕ}

/-- The word whose upper `m` bits are set. -/
def netmask (w m : ℕ) : BitVec w := BitVec.allOnes w <<< (w - m)

/-- The network of `m` bits that a word lies in. -/
def networkOf (m : ℕ) (x : BitVec w) : BitVec w := x &&& netmask w m

variable {m n : ℕ} {x g h : BitVec w}

theorem getLsbD_netmask (w m i : ℕ) :
    (netmask w m).getLsbD i = decide (i < w ∧ w - m ≤ i) := by
  rw [netmask, BitVec.getLsbD_shiftLeft, BitVec.getLsbD_allOnes, ← decide_not, ← Bool.decide_and,
    ← Bool.decide_and, decide_eq_decide]
  omega

theorem netmask_and (hmn : m ≤ n) : netmask w n &&& netmask w m = netmask w m := by
  apply BitVec.eq_of_getLsbD_eq
  intro i _
  rw [BitVec.getLsbD_and, getLsbD_netmask, getLsbD_netmask, ← Bool.decide_and, decide_eq_decide]
  omega

/-- A longer network lies within the shorter one of its words. -/
theorem networkOf_networkOf (hmn : m ≤ n) (x : BitVec w) :
    networkOf m (networkOf n x) = networkOf m x := by
  rw [networkOf, networkOf, BitVec.and_assoc, netmask_and hmn]
  rfl

@[simp] theorem networkOf_zero (x : BitVec w) : networkOf 0 x = 0 := by
  apply BitVec.eq_of_getLsbD_eq
  intro i hi
  have hno : (netmask w 0).getLsbD i = false := by
    rw [getLsbD_netmask, decide_eq_false_iff_not]
    omega
  rw [networkOf, BitVec.getLsbD_and, hno, Bool.and_false]
  simp

theorem networkOf_congr (hmn : m ≤ n) (h : networkOf n x = networkOf n g) :
    networkOf m x = networkOf m g := by
  rw [← networkOf_networkOf hmn x, h, networkOf_networkOf hmn]

/-- Two networks have a word in common if and only if the base of one lies in the other. -/
theorem networks_meet_iff :
    (∃ x, networkOf m x = networkOf m g ∧ networkOf n x = networkOf n h) ↔
      networkOf m h = networkOf m g ∨ networkOf n g = networkOf n h := by
  constructor
  · rintro ⟨x, hg, hh⟩
    rcases Nat.le_total m n with hmn | hnm
    · left
      rw [← hg]
      exact (networkOf_congr hmn hh).symm
    · right
      rw [← hh]
      exact (networkOf_congr hnm hg).symm
  · rintro (hm | hn)
    · exact ⟨h, hm, rfl⟩
    · exact ⟨g, rfl, hn⟩

end Ryu
