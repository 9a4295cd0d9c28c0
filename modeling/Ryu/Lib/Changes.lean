import Mathlib.Data.List.Basic

/-! # Reports of a value that changes

A value is reported when it changes, and only then. The reports say how it went from the first value
to the last, and no two that follow one another are the same.
-/

namespace Ryu

variable {α : Type*} {a b c x : α} {l : List α}

/-- The value was `a`, is `b`, and each time it changed it was reported. -/
def Reports : α → α → List α → Prop
  | a, b, [] => a = b
  | a, b, x :: l => a ≠ x ∧ Reports x b l

@[simp] theorem reports_nil : Reports a b [] ↔ a = b := Iff.rfl

/-- The last report is what the value is, and what it was not. -/
theorem reports_concat : Reports a c (l ++ [x]) ↔ x = c ∧ ∃ b, Reports a b l ∧ b ≠ x := by
  induction l generalizing a with
  | nil =>
    simp only [List.nil_append, Reports]
    constructor
    · rintro ⟨hne, rfl⟩
      exact ⟨rfl, a, rfl, hne⟩
    · rintro ⟨rfl, b, rfl, hne⟩
      exact ⟨hne, rfl⟩
  | cons y l ih =>
    simp only [List.cons_append, Reports, ih]
    constructor
    · rintro ⟨hne, hx, b, hb, hbx⟩
      exact ⟨hx, b, ⟨hne, hb⟩, hbx⟩
    · rintro ⟨hx, b, ⟨hne, hb⟩, hbx⟩
      exact ⟨hne, hx, b, hb, hbx⟩

theorem Reports.unique (h : Reports a b l) (h' : Reports a c l) : b = c := by
  induction l generalizing a with
  | nil =>
    obtain rfl : a = b := h
    exact h'
  | cons y l ih => exact ih h.2 h'.2

/-- A report is right if and only if the value has changed. -/
theorem Reports.concat_iff (h : Reports a b l) : Reports a x (l ++ [x]) ↔ b ≠ x := by
  rw [reports_concat]
  constructor
  · rintro ⟨-, c, hc, hne⟩
    exact h.unique hc ▸ hne
  · exact fun hne => ⟨rfl, b, h, hne⟩

end Ryu
