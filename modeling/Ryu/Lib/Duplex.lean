import Mathlib.Logic.Basic

/-! # Two parties

Each of two parties has a state of its own, which says what it has sent and the other has not yet
received. A step changes the states of both: one party acts, and the other loses the message that
was taken off its wire. What holds between a party and the one it hears from is shown once in each
direction.
-/

namespace Ryu

inductive Side
  | left
  | right
  deriving DecidableEq, Repr

def Side.other : Side → Side
  | .left => .right
  | .right => .left

@[simp] theorem Side.other_left : Side.left.other = .right := rfl

@[simp] theorem Side.other_right : Side.right.other = .left := rfl

@[simp] theorem Side.other_other (s : Side) : s.other.other = s := by cases s <;> rfl

@[simp] theorem Side.other_ne (s : Side) : s.other ≠ s := by cases s <;> decide

theorem Side.eq_or_eq_other (s t : Side) : t = s ∨ t = s.other := by
  cases s <;> cases t <;> simp

/-- A state for each of the two parties. -/
abbrev Duplex (σ : Type*) := Side → σ

namespace Duplex

variable {σ : Type*}

/-- The party `s` is in the state `p`, and the other one in `q`. -/
def pair (s : Side) (p q : σ) : Duplex σ := fun t => if t = s then p else q

@[simp] theorem pair_self (s : Side) (p q : σ) : pair s p q s = p := if_pos rfl

@[simp] theorem pair_other (s : Side) (p q : σ) : pair s p q s.other = q := if_neg s.other_ne

@[simp] theorem pair_eta (n : Duplex σ) (s : Side) : pair s (n s) (n s.other) = n := by
  funext t
  rcases s.eq_or_eq_other t with rfl | rfl <;> simp

theorem forall_iff {P : Side → Prop} (s : Side) : (∀ t, P t) ↔ P s ∧ P s.other := by
  constructor
  · intro h
    exact ⟨h s, h s.other⟩
  · rintro ⟨h, h'⟩ t
    rcases s.eq_or_eq_other t with rfl | rfl
    · exact h
    · exact h'

/-- `R` holds between each party and the one it hears from. -/
def EachWay (R : Side → σ → σ → Prop) (n : Duplex σ) : Prop := ∀ s, R s (n s) (n s.other)

variable {R : Side → σ → σ → Prop}

theorem eachWay_pair {s : Side} {p q : σ} : EachWay R (pair s p q) ↔ R s p q ∧ R s.other q p := by
  rw [EachWay, forall_iff s]
  simp

end Duplex

end Ryu
