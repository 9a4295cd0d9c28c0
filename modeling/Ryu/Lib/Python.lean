import Mathlib.Tactic.TypeStar

/-! # Python exceptions

The exceptions the modelled functions raise. A function that changes state before it
raises returns the exception beside the state it leaves.
-/

namespace Ryu

inductive PyError
  | valueError (message : String)
  | keyError (key : String)
  | typeError (message : String)
  | attributeError (name : String)
  | assertionError
  | runtimeError (message : String)
  | timeout
  | other (message : String)
  deriving DecidableEq, Repr

/-- The exception of a result, if it is one. -/
def errorOf {α : Type*} : Except PyError α → Option PyError
  | .error e => some e
  | .ok _ => none

@[simp] theorem isOk_ok {α : Type*} (a : α) : (Except.ok a : Except PyError α).isOk = true := rfl

@[simp] theorem isOk_error {α : Type*} (e : PyError) :
    (Except.error e : Except PyError α).isOk = false := rfl

theorem errorOf_eq_none {α : Type*} {x : Except PyError α} : errorOf x = none ↔ x.isOk := by
  cases x <;> simp [errorOf]

theorem isOk_iff {α : Type*} {x : Except PyError α} : x.isOk ↔ ∃ a, x = .ok a := by
  cases x <;> simp

@[simp] theorem isOk_map {α β : Type*} {x : Except PyError α} {f : α → β} :
    (x.map f).isOk = x.isOk := by
  cases x <;> rfl

theorem map_eq_ok {ε α β : Type*} {x : Except ε α} {f : α → β} {b : β} :
    x.map f = .ok b ↔ ∃ a, x = .ok a ∧ f a = b := by
  cases x <;> simp [Except.map]

theorem bind_eq_ok {ε α β : Type} {x : Except ε α} {f : α → Except ε β} {b : β} :
    (x >>= f) = .ok b ↔ ∃ a, x = .ok a ∧ f a = .ok b := by
  cases x <;> simp [bind, Except.bind]

theorem toOption_eq_some {α : Type*} {x : Except PyError α} {a : α} :
    x.toOption = some a ↔ x = .ok a := by
  cases x <;> simp [Except.toOption]

end Ryu
