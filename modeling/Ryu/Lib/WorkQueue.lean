import Mathlib.Data.List.Nodup

/-! # Work queues

A queue of items that wait for processing, first in first out. An item that waits already is
not queued again, so what is popped does not wait any more.
-/

namespace Ryu

/-- A queue that holds each item at most once. -/
structure WorkQueue (α : Type*) where
  items : List α
  nodup : items.Nodup
  deriving DecidableEq, Repr

namespace WorkQueue

variable {α : Type*}

def empty : WorkQueue α := ⟨[], List.nodup_nil⟩

/-- `a` waits. -/
def Waits (q : WorkQueue α) (a : α) : Prop := a ∈ q.items

/-- The first item and what waits behind it. -/
def popFirst : WorkQueue α → Option (α × WorkQueue α)
  | ⟨[], _⟩ => none
  | ⟨a :: l, h⟩ => some (a, ⟨l, (List.nodup_cons.mp h).2⟩)

variable [DecidableEq α]

instance (q : WorkQueue α) (a : α) : Decidable (q.Waits a) :=
  inferInstanceAs (Decidable (a ∈ q.items))

/-- Append `a` unless it waits already. -/
def enqueue (q : WorkQueue α) (a : α) : WorkQueue α :=
  if h : a ∈ q.items then q
  else ⟨q.items ++ [a], by
    rw [← List.concat_eq_append]
    exact List.Nodup.concat h q.nodup⟩

def enqueueAll (q : WorkQueue α) (l : List α) : WorkQueue α := l.foldl enqueue q

variable {q q' : WorkQueue α} {a b : α}

@[simp] theorem waits_enqueue : (q.enqueue a).Waits b ↔ q.Waits b ∨ b = a := by
  unfold enqueue Waits
  split
  · next h =>
    constructor
    · exact Or.inl
    · rintro (hb | rfl)
      · exact hb
      · exact h
  · simp

@[simp] theorem waits_enqueueAll {l : List α} : (q.enqueueAll l).Waits b ↔ q.Waits b ∨ b ∈ l := by
  induction l generalizing q with
  | nil => simp [enqueueAll]
  | cons a l ih =>
    have h := ih (q := q.enqueue a)
    rw [waits_enqueue, or_assoc, ← List.mem_cons] at h
    exact h

omit [DecidableEq α] in
/-- What is popped waited, and waits no more. -/
theorem waits_popFirst (h : q.popFirst = some (a, q')) : q'.Waits b ↔ q.Waits b ∧ b ≠ a := by
  obtain ⟨_ | ⟨a', l⟩, hnd⟩ := q
  · cases h
  · obtain ⟨rfl, rfl⟩ := Prod.mk.inj (Option.some.inj h)
    have ha := (List.nodup_cons.mp hnd).1
    unfold Waits
    rw [List.mem_cons]
    constructor
    · intro hb
      exact ⟨Or.inr hb, fun he => ha (he ▸ hb)⟩
    · rintro ⟨rfl | hb, hne⟩
      · exact absurd rfl hne
      · exact hb

end WorkQueue

end Ryu
