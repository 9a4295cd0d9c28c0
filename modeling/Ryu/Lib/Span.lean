import Ryu.Lib.Codec

/-! # Loops over the items of a span

`while used < span: item = read(buf[used:]); used += len(item)`. The last item may reach beyond the
span, and an item is counted with the length that it says, not with what was read of the buffer.
-/

namespace Ryu

variable {ε α β : Type*}

/-- At most so many rounds of the loop, of which there are no more than the span is long. -/
def readSpan (read : List β → Except ε α) (len : α → ℕ) :
    ℕ → ℕ → List β → Except ε (List α × List β)
  | 0, _, b | _, 0, b => .ok ([], b)
  | fuel + 1, span + 1, b =>
    match read b with
    | .error e => .error e
    | .ok a =>
      (readSpan read len fuel (span + 1 - len a) (b.drop (len a))).map fun x => (a :: x.1, x.2)

variable {read : List β → Except ε α} {len : α → ℕ} {fuel span : ℕ} {b r : List β} {a : α}
  {l : List α}

@[simp] theorem readSpan_zero : readSpan read len fuel 0 b = .ok ([], b) := by
  cases fuel <;> rfl

theorem readSpan_step (h : read b = .ok a) : readSpan read len (fuel + 1) (span + 1) b =
    (readSpan read len fuel (span + 1 - len a) (b.drop (len a))).map fun x => (a :: x.1, x.2) := by
  rw [readSpan, h]

/-- Items that are each read off, and counted with their own octets, are all read off. -/
theorem readSpan_flatMap {w : α → List β} (hw : ∀ a ∈ l, w a ≠ [])
    (hlen : ∀ a ∈ l, len a = (w a).length) (hread : ∀ a ∈ l, ∀ r, read (w a ++ r) = .ok a)
    (hspan : (l.flatMap w).length = span) (hfuel : span ≤ fuel) :
    readSpan read len fuel span (l.flatMap w ++ r) = .ok (l, r) := by
  induction l generalizing fuel span with
  | nil =>
    obtain rfl : span = 0 := hspan.symm
    simp
  | cons a l ih =>
    obtain ⟨hwa, hw⟩ := List.forall_mem_cons.mp hw
    obtain ⟨hlena, hlen⟩ := List.forall_mem_cons.mp hlen
    obtain ⟨hreada, hread⟩ := List.forall_mem_cons.mp hread
    have hpos := List.length_pos_iff.mpr hwa
    rw [List.flatMap_cons, List.length_append] at hspan
    obtain ⟨span, rfl⟩ := Nat.exists_eq_succ_of_ne_zero (show span ≠ 0 by omega)
    obtain ⟨fuel, rfl⟩ := Nat.exists_eq_succ_of_ne_zero (show fuel ≠ 0 by omega)
    have hdrop : (w a ++ (l.flatMap w ++ r)).drop (len a) = l.flatMap w ++ r :=
      List.drop_left' hlena.symm
    rw [List.flatMap_cons, List.append_assoc, readSpan_step (hreada _), hdrop,
      ih hw hlen hread (by omega) (by omega)]
    rfl

end Ryu
