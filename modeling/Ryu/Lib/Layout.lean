import Ryu.Lib.Bytes

/-! # Items laid out in a buffer

Octets are packed at an offset of a buffer, which is extended with zeros up to their end. An item
has octets of its own and a length it declares, at least as long. Items that are written one after
the other, each behind the declared length of the one before, leave a gap of zeros behind every
item but the last one. Items that are only appended leave no gaps, so that an item that is shorter
than it declares moves those behind it.
-/

namespace Ryu

open Bytes

section Buffer

variable {buf a b c x : List UInt8} {offset m n : ℕ}

theorem length_padRight (b : List UInt8) (n : ℕ) : (padRight b n).length = max b.length n := by
  rw [padRight, List.length_append, List.length_replicate]
  omega

theorem padRight_of_le (h : n ≤ b.length) : padRight b n = b := by
  rw [padRight, Nat.sub_eq_zero_of_le h, List.replicate_zero, List.append_nil]

theorem padRight_append (a b : List UInt8) (n : ℕ) :
    padRight (a ++ b) (a.length + n) = a ++ padRight b n := by
  have hlen : a.length + n - (a.length + b.length) = n - b.length := by omega
  rw [padRight, padRight, List.length_append, hlen, List.append_assoc]

theorem padRight_padRight (h : m ≤ n) : padRight (padRight b m) n = padRight b n := by
  have hlen : m - b.length + (n - (b.length + (m - b.length))) = n - b.length := by omega
  rw [padRight, padRight, padRight, List.append_assoc, List.length_append, List.length_replicate,
    List.replicate_append_replicate, hlen]

/-- The buffer is extended up to the end of the octets, which are put in their place. -/
def packAt (buf : List UInt8) (offset : ℕ) (b : List UInt8) : List UInt8 :=
  let buf := padRight buf (offset + b.length)
  buf.take offset ++ (b ++ buf.drop (offset + b.length))

theorem packAt_of_le (h : buf.length ≤ offset) : packAt buf offset b = padRight buf offset ++ b := by
  have hlen : (padRight buf offset).length = offset := by
    rw [length_padRight]
    omega
  have htake : (padRight buf (offset + b.length)).take offset = padRight buf offset := by
    rw [← padRight_padRight (Nat.le_add_right offset b.length)]
    exact List.take_left' hlen
  have hdrop : (padRight buf (offset + b.length)).drop (offset + b.length) = [] := by
    rw [List.drop_eq_nil_iff, length_padRight]
    omega
  rw [packAt, htake, hdrop, List.append_nil]

theorem length_packAt (buf : List UInt8) (offset : ℕ) (b : List UInt8) :
    (packAt buf offset b).length = max buf.length (offset + b.length) := by
  rw [packAt, List.length_append, List.length_append, List.length_take, List.length_drop,
    length_padRight]
  omega

theorem packAt_length_add (a b x : List UInt8) (m : ℕ) :
    packAt (a ++ b) (a.length + m) x = a ++ packAt b m x := by
  rw [packAt, packAt, Nat.add_assoc, padRight_append, List.take_length_add_append,
    List.drop_length_add_append, List.append_assoc]

/-- Behind a buffer, octets are packed as at the start of an empty one. -/
theorem packAt_padRight (h : buf.length ≤ offset) (b x : List UInt8) (m : ℕ) :
    packAt (padRight buf offset ++ b) (offset + m) x = padRight buf offset ++ packAt b m x := by
  have hlen : (padRight buf offset).length = offset := by
    rw [length_padRight]
    omega
  nth_rewrite 2 [← hlen]
  exact packAt_length_add _ _ _ _

theorem packAt_behind (h : buf.length ≤ offset) (m : ℕ) (x : List UInt8) :
    packAt buf (offset + m) x = padRight buf offset ++ packAt [] m x := by
  have hpad : packAt buf (offset + m) x = packAt (padRight buf offset) (offset + m) x := by
    rw [packAt, packAt, padRight_padRight (by omega)]
  rw [hpad, ← packAt_padRight h, List.append_nil]

theorem packAt_padRight_zero (h : buf.length ≤ offset) (b x : List UInt8) :
    packAt (padRight buf offset ++ b) offset x = padRight buf offset ++ packAt b 0 x :=
  packAt_padRight h b x 0

theorem packAt_behind_zero (h : buf.length ≤ offset) (x : List UInt8) :
    packAt buf offset x = padRight buf offset ++ packAt [] 0 x :=
  packAt_behind h 0 x

/-- Octets are packed over as many others. -/
theorem packAt_replace {a x y b : List UInt8} {n : ℕ} (ha : a.length = n)
    (hx : x.length = b.length) : packAt (a ++ (x ++ y)) n b = a ++ (b ++ y) := by
  subst ha
  refine (packAt_length_add a (x ++ y) b 0).trans ?_
  rw [packAt, Nat.zero_add, padRight_of_le (by simp [hx]), List.take_zero, List.nil_append,
    List.drop_left' hx]

@[simp] theorem packAt_empty (b : List UInt8) : packAt [] 0 b = b :=
  packAt_of_le (le_refl 0)

/-- Octets are packed at the end. -/
theorem packAt_end (h : buf.length = offset) (b : List UInt8) : packAt buf offset b = buf ++ b := by
  rw [packAt_of_le h.le, padRight_of_le h.ge]

theorem packAt_nil (h : offset ≤ buf.length) : packAt buf offset [] = buf := by
  rw [packAt, List.length_nil, Nat.add_zero, padRight_of_le h, List.nil_append,
    List.take_append_drop]

/-- Octets that are there are replaced. -/
theorem packAt_append (ha : a.length = offset) (hx : x.length = b.length) :
    packAt (a ++ (x ++ c)) offset b = a ++ (b ++ c) := by
  subst ha
  have hle : a.length + b.length ≤ (a ++ (x ++ c)).length := by
    rw [List.length_append, List.length_append]
    omega
  have hdrop : (a ++ (x ++ c)).drop (a.length + b.length) = c := by
    rw [← hx, ← List.append_assoc]
    exact List.drop_left' (List.length_append ..)
  rw [packAt, padRight_of_le hle, List.take_left, hdrop]

theorem packAt_start (hx : x.length = b.length) : packAt (x ++ c) 0 b = b ++ c :=
  packAt_append (a := []) rfl hx

end Buffer

/-- Octets, and the length that is declared for them. -/
structure Item where
  own : List UInt8
  len : ℕ
  own_le : own.length ≤ len

namespace Item

/-- The own octets, and zeros up to the length. -/
def octets (i : Item) : List UInt8 := padRight i.own i.len

/-- The item is as long as it declares. -/
def Full (i : Item) : Prop := i.own.length = i.len

/-- The sum of the lengths. -/
def total (l : List Item) : ℕ := (l.map len).sum

/-- Each item is packed behind the length of those before. -/
def place (buf : List UInt8) (offset : ℕ) : List Item → List UInt8
  | [] => buf
  | i :: l => place (packAt buf offset i.own) (offset + i.len) l

/-- Each item occupies its length, from the offset behind the lengths of those before. -/
def Occupy (buf : List UInt8) : ℕ → List Item → Prop
  | _, [] => True
  | offset, i :: l =>
    (offset + i.len ≤ buf.length ∧ (buf.drop offset).take i.len = i.octets) ∧
      Occupy buf (offset + i.len) l

variable {i : Item} {l : List Item} {buf a c : List UInt8} {offset : ℕ}

@[simp] theorem length_octets (i : Item) : i.octets.length = i.len := by
  rw [octets, length_padRight, Nat.max_eq_right i.own_le]

theorem octets_of_full (h : i.Full) : i.octets = i.own := padRight_of_le h.ge

@[simp] theorem total_nil : total [] = 0 := rfl

@[simp] theorem total_cons (i : Item) (l : List Item) : total (i :: l) = i.len + total l := by
  rw [total, List.map_cons, List.sum_cons]
  rfl

theorem length_flatMap_octets (l : List Item) : (l.flatMap octets).length = total l := by
  induction l with
  | nil => rfl
  | cons i l ih => rw [List.flatMap_cons, List.length_append, ih, length_octets, total_cons]

theorem occupy_octets (a : List UInt8) (l : List Item) (c : List UInt8) :
    Occupy (a ++ (l.flatMap octets ++ c)) a.length l := by
  induction l generalizing a with
  | nil => exact trivial
  | cons i l ih =>
    constructor
    · constructor
      · rw [List.length_append, List.length_append, length_flatMap_octets, total_cons]
        omega
      · rw [List.drop_left, List.flatMap_cons, List.append_assoc,
          List.take_left' (length_octets i)]
    · have hrest := ih (a ++ i.octets)
      rwa [List.length_append, length_octets, List.append_assoc, ← List.append_assoc i.octets,
        ← List.flatMap_cons] at hrest

/-- The last item is the only one without a gap behind it. -/
theorem place_concat (h : buf.length ≤ offset) (l : List Item) (i : Item) :
    place buf offset (l ++ [i]) = padRight buf offset ++ (l.flatMap octets ++ i.own) := by
  induction l generalizing buf offset with
  | nil => exact packAt_of_le h
  | cons j l ih =>
    have hpad : (padRight buf offset).length = offset := by
      rw [length_padRight]
      omega
    have hlen : (packAt buf offset j.own).length ≤ offset + j.len := by
      rw [packAt_of_le h, List.length_append, hpad]
      have hle := j.own_le
      omega
    have hgap : padRight (packAt buf offset j.own) (offset + j.len) =
        padRight buf offset ++ j.octets := by
      rw [packAt_of_le h]
      nth_rewrite 2 [← hpad]
      exact padRight_append _ _ _
    rw [List.cons_append, place, ih hlen, hgap, List.flatMap_cons]
    simp only [List.append_assoc]

theorem octets_append (h : i.Full) (l : List Item) :
    l.flatMap octets ++ i.own = (l ++ [i]).flatMap octets := by
  rw [List.flatMap_append, List.flatMap_singleton, octets_of_full h]

theorem own_eq_octets (h : ∀ j ∈ l, j.Full) : l.flatMap own = l.flatMap octets := by
  induction l with
  | nil => rfl
  | cons j l ih =>
    rw [List.flatMap_cons, List.flatMap_cons, octets_of_full (h j List.mem_cons_self),
      ih fun k hk => h k (List.mem_cons_of_mem j hk)]

theorem occupy_concat : Occupy buf offset (l ++ [i]) ↔ Occupy buf offset l ∧
    offset + total l + i.len ≤ buf.length ∧
      (buf.drop (offset + total l)).take i.len = i.octets := by
  induction l generalizing offset with
  | nil => simp [Occupy]
  | cons j l ih =>
    simp only [List.cons_append, Occupy, ih, total_cons, and_assoc, ← Nat.add_assoc]

/-- If the octets of a list are there again behind zeros, they are all zeros. -/
theorem eq_zero_of_shifted {k : ℕ} (hk : 0 < k) {h X : List UInt8} (hX : h <+: X)
    (hzero : X.take k = List.replicate k 0) (hshift : h <+: X.drop k) : ∀ x ∈ h, x = 0 := by
  have hget : ∀ {Y : List UInt8}, h <+: Y → ∀ {j : ℕ} {x : UInt8}, h[j]? = some x →
      Y[j]? = some x := by
    rintro _ ⟨t, rfl⟩ j x hx
    rwa [List.getElem?_append_left (List.getElem?_eq_some_iff.mp hx).1]
  have hall : ∀ (j : ℕ) (x : UInt8), h[j]? = some x → x = 0 := by
    intro j
    induction j using Nat.strong_induction_on with
    | _ j ih =>
      intro x hx
      have hXj : X[j]? = some x := hget hX hx
      by_cases hjk : j < k
      · have htake : (X.take k)[j]? = some x := by rwa [List.getElem?_take_of_lt hjk]
        rw [hzero, List.getElem?_replicate_of_lt hjk] at htake
        exact (Option.some.inj htake).symm
      · have hlt : j - k < h.length := by
          have hj := (List.getElem?_eq_some_iff.mp hx).1
          omega
        have hback : h[j - k]? = some h[j - k] := List.getElem?_eq_getElem hlt
        have hdrop : (X.drop k)[j - k]? = some h[j - k] := hget hshift hback
        rw [List.getElem?_drop, show k + (j - k) = j by omega, hXj] at hdrop
        rw [Option.some.inj hdrop]
        exact ih (j - k) (by omega) _ hback
  intro x hx
  obtain ⟨j, hj⟩ := List.mem_iff_getElem?.mp hx
  exact hall j x hj

/-- Of items that are appended, one that is not full moves the next one. -/
theorem full_of_occupy {m : ℕ} (hl : ∀ i ∈ l, ∃ x ∈ i.own, x ≠ 0)
    (h : Occupy (a ++ (l.flatMap own ++ List.replicate m 0)) a.length l) :
    ∀ i ∈ l.dropLast, i.Full := by
  induction l generalizing a with
  | nil => simp
  | cons i l ih =>
    cases l with
    | nil => simp
    | cons j l =>
      obtain ⟨⟨-, hi⟩, ⟨hle, hj⟩, hrest⟩ := h
      generalize hX : (j :: l).flatMap own ++ List.replicate m 0 = X at ih
      have hXj : j.own <+: X := by
        rw [← hX, List.flatMap_cons, List.append_assoc]
        exact List.prefix_append _ _
      rw [List.flatMap_cons, List.append_assoc, hX] at hi hle hj hrest
      have hfull : i.Full := by
        by_contra hne
        obtain ⟨k, hk⟩ := Nat.exists_eq_add_of_le i.own_le
        have hpos : 0 < k := by
          refine Nat.pos_of_ne_zero ?_
          rintro rfl
          exact hne hk.symm
        have hgap : X.take k = List.replicate k 0 := by
          rw [List.drop_left, octets, padRight, hk, List.take_length_add_append,
            Nat.add_sub_cancel_left] at hi
          exact List.append_cancel_left hi
        have hnext : j.own <+: X.drop k := by
          rw [hk, List.drop_length_add_append, List.drop_length_add_append] at hj
          have htake : j.octets <+: X.drop k := hj ▸ List.take_prefix _ _
          exact (List.prefix_append _ _).trans htake
        obtain ⟨x, hx, hx0⟩ := hl j (List.mem_cons_of_mem _ List.mem_cons_self)
        exact hx0 (eq_zero_of_shifted hpos hXj hgap hnext x hx)
      have hlen : a.length + i.len = (a ++ i.own).length := by
        rw [List.length_append, hfull]
      have hoccupy : Occupy ((a ++ i.own) ++ X) (a ++ i.own).length (j :: l) := by
        rw [← hlen, List.append_assoc]
        exact ⟨⟨hle, hj⟩, hrest⟩
      intro k hk
      rw [List.dropLast_cons_cons] at hk
      obtain rfl | hk := List.mem_cons.mp hk
      · exact hfull
      · exact ih (fun i hi => hl i (List.mem_cons_of_mem _ hi)) hoccupy k hk

end Item

end Ryu
