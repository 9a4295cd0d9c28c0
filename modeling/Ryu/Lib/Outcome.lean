import Ryu.Lib.Python

/-! # Actions that may raise

What an action leaves of a state, beside the exception that ended it. An action behind one
that raised does not run, and what was done before stays.
-/

namespace Ryu

/-- The state an action leaves, and the exception it raised, if it did. -/
abbrev Outcome (σ : Type*) := σ × Option PyError

namespace Outcome

variable {σ τ α : Type*}

/-- One action, then another. -/
def andThen (r : Outcome σ) (f : σ → Outcome σ) : Outcome σ :=
  match r with
  | (s, none) => f s
  | (s, some e) => (s, some e)

/-- An action for each element of a list. -/
def forEach (f : σ → α → Outcome σ) (s : σ) : List α → Outcome σ
  | [] => (s, none)
  | a :: l => (f s a).andThen fun s => forEach f s l

/-- An action on a part of a state. -/
def lift (r : Outcome σ) (put : σ → τ) : Outcome τ := (put r.1, r.2)

@[simp] theorem andThen_none (s : σ) (f : σ → Outcome σ) : andThen (s, none) f = f s := rfl

@[simp] theorem andThen_some (s : σ) (e : PyError) (f : σ → Outcome σ) :
    andThen (s, some e) f = (s, some e) := rfl

@[simp] theorem lift_none (s : σ) (put : σ → τ) : lift (s, none) put = (put s, none) := rfl

@[simp] theorem lift_some (s : σ) (e : PyError) (put : σ → τ) :
    lift (s, some e) put = (put s, some e) := rfl

variable {f : σ → α → Outcome σ}

theorem forEach_congr {g : σ → α → Outcome σ} {l : List α} (h : ∀ s, ∀ a ∈ l, f s a = g s a)
    (s : σ) : forEach f s l = forEach g s l := by
  induction l generalizing s with
  | nil => rfl
  | cons a l ih =>
    rw [forEach, forEach, h s a List.mem_cons_self]
    congr 1
    ext1 s
    exact ih (fun s b hb => h s b (List.mem_cons_of_mem a hb)) s

end Outcome

end Ryu
