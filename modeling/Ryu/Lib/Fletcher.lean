import Mathlib.Algebra.BigOperators.Group.List.Basic
import Mathlib.Tactic.LinearCombination
import Mathlib.Tactic.Ring

/-! # Fletcher sums

Two sums run over a list, the second over what the first has come to. The second weighs each number
by its place from the end, so that two numbers anywhere in the list can be chosen to make both sums
vanish.
-/

namespace Ryu.Fletcher

/-- The sum where the last number counts once, the one before it twice, and so on. -/
def weighted {R : Type*} [Semiring R] : List R → R
  | [] => 0
  | d :: l => (l.length + 1) * d + weighted l

/-- Both sums, after one more number. -/
def add {R : Type*} [Add R] (c : R × R) (d : R) : R × R := (c.1 + d, c.2 + (c.1 + d))

section Semiring

variable {R S : Type*} [CommSemiring R] [CommSemiring S] {a b l : List R}

theorem foldl_add (c : R × R) (l : List R) :
    l.foldl add c = (c.1 + l.sum, c.2 + l.length * c.1 + weighted l) := by
  induction l generalizing c with
  | nil => simp [weighted]
  | cons d l ih =>
    rw [List.foldl_cons, ih, add, weighted, List.sum_cons, List.length_cons]
    refine Prod.ext (add_assoc _ _ _) ?_
    push_cast
    ring

theorem weighted_append : weighted (a ++ b) = weighted a + b.length * a.sum + weighted b := by
  induction a with
  | nil => simp [weighted]
  | cons d a ih =>
    rw [List.cons_append, weighted, ih, weighted, List.sum_cons, List.length_append]
    push_cast
    ring

theorem map_weighted (f : R →+* S) (l : List R) : f (weighted l) = weighted (l.map f) := by
  induction l with
  | nil => exact map_zero f
  | cons d l ih => simp [weighted, ih]

end Semiring

section Ring

variable {R : Type*} [CommRing R] {a b : List R} {x y : R}

/-- What is to be written in the place of two zeros for both sums to vanish. -/
theorem sums_check
    (hx : x = (b.length + 1) * (a ++ 0 :: 0 :: b).sum - weighted (a ++ 0 :: 0 :: b))
    (hy : y = -(a ++ 0 :: 0 :: b).sum - x) :
    (a ++ x :: y :: b).sum = 0 ∧ weighted (a ++ x :: y :: b) = 0 := by
  simp only [List.sum_append, List.sum_cons, weighted_append, weighted, List.length_cons] at hx hy ⊢
  push_cast at hx ⊢
  constructor
  · linear_combination hy
  · linear_combination hx + (b.length + 1 : R) * hy
end Ring

end Ryu.Fletcher
