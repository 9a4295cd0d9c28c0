import Mathlib.Algebra.BigOperators.Group.Finset.Basic
import Mathlib.Data.Finset.Sort
import Ryu.Lib.Numeral

/-! # Printed collections

What Python's `%s` makes of a list and of a set of numbers. A set is printed in the order
its table holds it in; the length of the text does not depend on that order.
-/

namespace Ryu.Display

open Numeral

/-- The texts, with a comma and a blank between them. -/
def commas (ts : List Text) : Text := [',', ' '].intercalate ts

/-- `'%s' % l`. -/
def list (l : List ℕ) : Text := '[' :: commas (l.map dec) ++ [']']

/-- The order in which the elements of a set are met. -/
structure SetOrder where
  toList : Finset ℕ → List ℕ
  nodup (s : Finset ℕ) : (toList s).Nodup
  toFinset (s : Finset ℕ) : (toList s).toFinset = s

/-- `sorted(s)`. -/
def sorted (s : Finset ℕ) : List ℕ := s.sort (· ≤ ·)

/-- `'%s' % s`. -/
def set (order : SetOrder) (s : Finset ℕ) : Text :=
  if s = ∅ then "set()".toList else '{' :: commas ((order.toList s).map dec) ++ ['}']

/-- An order there is. -/
def SetOrder.ascending : SetOrder where
  toList := sorted
  nodup s := s.sort_nodup (· ≤ ·)
  toFinset s := s.sort_toFinset (· ≤ ·)

variable {ts : List Text} {l : List ℕ} {s : Finset ℕ} {n k : ℕ}

/-- Two characters stand before every text but the first. -/
theorem length_commas_add (h : ts ≠ []) :
    (commas ts).length + 2 = (ts.map fun t => t.length + 2).sum := by
  induction ts with
  | nil => exact absurd rfl h
  | cons t ts ih =>
    cases ts with
    | nil => simp [commas]
    | cons u us =>
      have hc : commas (t :: u :: us) = t ++ [',', ' '] ++ commas (u :: us) :=
        List.intercalate_cons_cons
      have ih := ih (List.cons_ne_nil u us)
      rw [List.map_cons, List.sum_cons, ← ih, hc]
      simp only [List.length_append, List.length_cons, List.length_nil]
      omega

theorem length_list (h : l ≠ []) :
    (list l).length = (l.map fun n => (dec n).length + 2).sum := by
  have hm : l.map dec ≠ [] := by simpa using h
  have hc := length_commas_add hm
  rw [List.map_map] at hc
  exact (by simp [list] : (list l).length = (commas (l.map dec)).length + 2).trans hc

theorem length_set (order : SetOrder) (h : s.Nonempty) :
    (set order s).length = ∑ n ∈ s, ((dec n).length + 2) := by
  have hne : order.toList s ≠ [] := by
    intro h0
    have hs := order.toFinset s
    rw [h0, List.toFinset_nil] at hs
    exact h.ne_empty hs.symm
  have hm : (order.toList s).map dec ≠ [] := by simpa using hne
  have hc := length_commas_add hm
  rw [List.map_map] at hc
  have hl : (set order s).length = (commas ((order.toList s).map dec)).length + 2 := by
    simp [set, h.ne_empty]
  conv_rhs => rw [← order.toFinset s, List.sum_toFinset _ (order.nodup s)]
  exact hl.trans hc

theorem length_dec_of_lt (h : n < 10) : (dec n).length = 1 :=
  Nat.le_antisymm ((Nat.length_toDigits_le_iff (by decide) (by decide)).mpr h)
    (Nat.length_toDigits_pos)

/-- Numbers of one digit. -/
theorem length_sorted (h : s.Nonempty) (hs : ∀ n ∈ s, n < 10) :
    (list (sorted s)).length = 3 * s.card := by
  have hne : sorted s ≠ [] := by
    obtain ⟨n, hn⟩ := h
    exact List.ne_nil_of_mem ((s.mem_sort (· ≤ ·)).mpr hn)
  have h3 : (sorted s).map (fun n => (dec n).length + 2) = (sorted s).map fun _ => 3 := by
    apply List.map_congr_left
    intro n hn
    rw [length_dec_of_lt (hs n ((s.mem_sort (· ≤ ·)).mp hn))]
  rw [length_list hne, h3]
  simp [sorted, Nat.mul_comm]

theorem length_hex_le (hk : 0 < k) (h : n < 16 ^ k) : (hex 0 n).length ≤ k + 2 := by
  have hd := (Nat.length_toDigits_le_iff (b := 16) (by decide) hk).mpr h
  simp only [hex, pad, List.length_cons, List.length_append, List.length_replicate]
  omega

theorem length_hex_of_lt (h : n < 16) : (hex 0 n).length = 3 := by
  have h1 := length_hex_le (n := n) Nat.one_pos h
  have h2 : 0 < (Nat.toDigits 16 n).length := Nat.length_toDigits_pos
  simp only [hex, pad, List.length_cons, List.length_append, List.length_replicate] at h1 ⊢
  omega

end Ryu.Display
