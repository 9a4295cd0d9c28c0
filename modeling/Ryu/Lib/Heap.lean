import Mathlib.Data.List.GetD
import Mathlib.Tactic.TypeStar

/-! # Heaps of mutable objects

Objects of one type by reference. Allocation leaves the objects there are as they are; a
change is seen through its reference alone.
-/

namespace Ryu

abbrev Ref := ℕ

/-- The objects in the order of their allocation. -/
structure Heap (α : Type*) where
  cells : List α
  deriving DecidableEq, Repr

namespace Heap

section Objects

variable {α : Type*}

/-- There is an object of the reference. -/
def Has (h : Heap α) (r : Ref) : Prop := r < h.cells.length

/-- The reference of a new object, and the heap with it. -/
def alloc (h : Heap α) (a : α) : Ref × Heap α := (h.cells.length, ⟨h.cells ++ [a]⟩)

def modify (h : Heap α) (r : Ref) (f : α → α) : Heap α := ⟨h.cells.modify r f⟩

theorem has_alloc (h : Heap α) (a : α) : (h.alloc a).2.Has (h.alloc a).1 := by
  simp [Has, alloc]

theorem not_has_alloc (h : Heap α) (a : α) : ¬ h.Has (h.alloc a).1 := by
  simp [Has, alloc]

theorem has_modify {h : Heap α} {r r' : Ref} {f : α → α} : (h.modify r f).Has r' ↔ h.Has r' := by
  simp [Has, modify]

end Objects

section Read

variable {α : Type*} [Inhabited α] {h h' h'' : Heap α} {r r' : Ref} {a : α} {f : α → α}

def read (h : Heap α) (r : Ref) : α := h.cells.getD r default

/-- Every object of the first heap is in the second one, as it was. -/
def Grows (h h' : Heap α) : Prop := ∀ r, h.Has r → h'.Has r ∧ h'.read r = h.read r

theorem Grows.refl (h : Heap α) : Grows h h := fun _ hr => ⟨hr, rfl⟩

theorem Grows.trans (hg : Grows h h') (hg' : Grows h' h'') : Grows h h'' := by
  intro r hr
  obtain ⟨hr', he⟩ := hg r hr
  obtain ⟨hr'', he'⟩ := hg' r hr'
  exact ⟨hr'', he'.trans he⟩

@[simp] theorem read_alloc (h : Heap α) (a : α) : (h.alloc a).2.read (h.alloc a).1 = a := by
  simp [read, alloc]

theorem grows_alloc (h : Heap α) (a : α) : Grows h (h.alloc a).2 := by
  intro r hr
  constructor
  · rw [Has, alloc, List.length_append]
    exact Nat.lt_add_right _ hr
  · exact List.getD_append _ _ _ _ hr

theorem read_modify (hr : h.Has r) : (h.modify r f).read r = f (h.read r) := by
  unfold Has at hr
  simp [read, modify, List.getD_eq_getElem?_getD, hr]

theorem read_modify_of_ne (hne : r' ≠ r) : (h.modify r f).read r' = h.read r' := by
  simp [read, modify, List.getD_eq_getElem?_getD, hne.symm]

/-- What is done to an object that was not there before. -/
theorem Grows.modify (hg : Grows h h') (hr : ¬ h.Has r) : Grows h (h'.modify r f) := by
  intro r' hr'
  obtain ⟨hh, he⟩ := hg r' hr'
  have hne : r' ≠ r := by
    rintro rfl
    exact hr hr'
  exact ⟨has_modify.2 hh, (read_modify_of_ne hne).trans he⟩

end Read

end Heap

end Ryu
