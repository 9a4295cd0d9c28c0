import Mathlib.Algebra.CharP.Two
import Mathlib.Algebra.Field.ZMod
import Mathlib.Algebra.Polynomial.Div
import Ryu.Lib.Bytes

/-! # Cyclic redundancy checks

A register of `w` bits stands for a polynomial over `ZMod 2` of degree below `w`, the lowest bit
for the highest power. Shifting it by one place multiplies by `X` modulo the generator, and a table
of what becomes of the last eight bits shifts it by a whole byte. A pass over the bytes of a
message leaves the remainder of the message, times `X ^ w`, with the first register before it.
-/

namespace Ryu.Crc

open Polynomial

/-- The polynomial of a register. -/
noncomputable def ofRegister (w r : ℕ) : (ZMod 2)[X] :=
  ∑ i ∈ Finset.range w, if r.testBit i then X ^ (w - 1 - i) else 0

/-- The register of a polynomial. -/
noncomputable def toRegister (w : ℕ) (p : (ZMod 2)[X]) : ℕ :=
  Nat.ofBits fun i : Fin w => decide (p.coeff (w - 1 - i) = 1)

/-- The generator, whose lower powers are those of a register. -/
noncomputable def generator (w taps : ℕ) : (ZMod 2)[X] := X ^ w + ofRegister w taps

/-- The bits of a message, each byte with its lowest bit first. -/
noncomputable def message (data : List UInt8) : (ZMod 2)[X] :=
  data.foldl (fun p c => p * X ^ 8 + ofRegister 8 c.toNat) 0

/-- What is divided: the message, moved up by the width, and the first register before it. -/
noncomputable def dividend (w init : ℕ) (data : List UInt8) : (ZMod 2)[X] :=
  X ^ w * message data + X ^ (8 * data.length) * ofRegister w init

/-- The check of a message, by its definition. -/
noncomputable def remainder (w taps init : ℕ) (data : List UInt8) : ℕ :=
  toRegister w (dividend w init data %ₘ generator w taps)

/-- A register is shifted by one place. -/
def shift (taps r : ℕ) : ℕ := if r.testBit 0 then r >>> 1 ^^^ taps else r >>> 1

/-- A byte goes into a register, by a table. -/
def update (table : ℕ → ℕ) (r : ℕ) (c : UInt8) : ℕ := r >>> 8 ^^^ table ((r ^^^ c.toNat) &&& 0xff)

variable {w taps init a b r m n : ℕ} {p q : (ZMod 2)[X]} {data : List UInt8} {c : UInt8}
  {table : ℕ → ℕ}

/-! ## Registers and polynomials -/

theorem ofRegister_xor (w a b : ℕ) : ofRegister w (a ^^^ b) = ofRegister w a + ofRegister w b := by
  rw [ofRegister, ofRegister, ofRegister, ← Finset.sum_add_distrib]
  refine Finset.sum_congr rfl fun i _ => ?_
  rw [Nat.testBit_xor]
  cases a.testBit i <;> cases b.testBit i <;> simp [CharTwo.add_self_eq_zero]

theorem coeff_ofRegister {i : ℕ} (hi : i < w) (r : ℕ) :
    (ofRegister w r).coeff (w - 1 - i) = if r.testBit i then 1 else 0 := by
  rw [ofRegister, finsetSum_coeff, Finset.sum_eq_single_of_mem i (Finset.mem_range.mpr hi)]
  · split <;> simp
  · intro j hj hne
    have hj : j < w := Finset.mem_range.mp hj
    split
    · rw [coeff_X_pow, if_neg (by omega)]
    · rfl

theorem degree_ofRegister_lt (w r : ℕ) : (ofRegister w r).degree < w := by
  cases w with
  | zero => simp [ofRegister]
  | succ w =>
    refine (degree_sum_le _ _).trans_lt ?_
    refine (Finset.sup_lt_iff (WithBot.bot_lt_coe _)).mpr fun i hi => ?_
    split
    · rw [degree_X_pow]
      exact_mod_cast (by omega : w + 1 - 1 - i < w + 1)
    · rw [degree_zero]
      exact WithBot.bot_lt_coe _

theorem ofRegister_inj (ha : a < 2 ^ w) (hb : b < 2 ^ w)
    (h : ofRegister w a = ofRegister w b) : a = b := by
  refine Nat.eq_of_testBit_eq fun i => ?_
  by_cases hi : i < w
  · have hc := congrArg (coeff · (w - 1 - i)) h
    simp only [coeff_ofRegister hi] at hc
    cases ha' : a.testBit i <;> cases hb' : b.testBit i <;> simp_all
  · have hle : 2 ^ w ≤ 2 ^ i := Nat.pow_le_pow_right (by decide) (not_lt.mp hi)
    rw [Nat.testBit_lt_two_pow (ha.trans_le hle), Nat.testBit_lt_two_pow (hb.trans_le hle)]

theorem toRegister_ofRegister (h : r < 2 ^ w) : toRegister w (ofRegister w r) = r := by
  refine Nat.eq_of_testBit_eq fun i => ?_
  by_cases hi : i < w
  · rw [toRegister, Nat.testBit_ofBits_lt _ _ hi]
    simp only [coeff_ofRegister hi]
    cases r.testBit i <;> simp
  · have hle : 2 ^ w ≤ 2 ^ i := Nat.pow_le_pow_right (by decide) (not_lt.mp hi)
    rw [toRegister, Nat.testBit_ofBits_ge _ _ (not_lt.mp hi), Nat.testBit_lt_two_pow (h.trans_le hle)]

/-- A register whose last bit is not set is shifted by a multiplication with `X`. -/
theorem X_mul_ofRegister (h : r < 2 ^ w) (hw : 0 < w) : X * ofRegister w r =
    (if r.testBit 0 then X ^ w else 0) + ofRegister w (r >>> 1) := by
  obtain ⟨v, rfl⟩ : ∃ v, w = v + 1 := ⟨w - 1, by omega⟩
  have htop : (r >>> 1).testBit v = false := by
    rw [Nat.testBit_shiftRight, Nat.add_comm]
    exact Nat.testBit_lt_two_pow h
  rw [ofRegister, ofRegister, Finset.sum_range_succ', Finset.sum_range_succ, htop,
    if_neg Bool.false_ne_true, add_zero, mul_add, add_comm, Finset.mul_sum]
  congr 1
  · split
    · exact (pow_succ' X v).symm
    · rw [mul_zero]
  · refine Finset.sum_congr rfl fun i hi => ?_
    have hi : i < v := Finset.mem_range.mp hi
    rw [Nat.testBit_shiftRight, Nat.add_comm 1 i]
    split
    · rw [← pow_succ']
      congr 1
      omega
    · rw [mul_zero]

theorem monic_generator (w taps : ℕ) : (generator w taps).Monic :=
  monic_X_pow_add (degree_ofRegister_lt w taps)

theorem degree_generator (w taps : ℕ) : (generator w taps).degree = w := by
  rw [generator, degree_add_eq_left_of_degree_lt] <;> rw [degree_X_pow]
  exact degree_ofRegister_lt w taps

/-! ## Shifting -/

/-- Two polynomials leave the same remainder. -/
def Same (w taps : ℕ) (p q : (ZMod 2)[X]) : Prop := generator w taps ∣ p - q

theorem same_iff_mod : Same w taps p q ↔ p %ₘ generator w taps = q %ₘ generator w taps := by
  have hg := monic_generator w taps
  rw [Same, ← (modByMonic_eq_zero_iff_dvd hg), sub_modByMonic, sub_eq_zero]

theorem Same.trans {p' : (ZMod 2)[X]} (h : Same w taps p q) (h' : Same w taps q p') :
    Same w taps p p' := by
  rw [same_iff_mod] at *
  exact h.trans h'

theorem Same.add {p' q' : (ZMod 2)[X]} (h : Same w taps p q) (h' : Same w taps p' q') :
    Same w taps (p + p') (q + q') := by
  rw [Same, add_sub_add_comm]
  exact dvd_add h h'

theorem Same.mul_left (h : Same w taps p q) (f : (ZMod 2)[X]) : Same w taps (f * p) (f * q) := by
  rw [Same, ← mul_sub]
  exact Dvd.dvd.mul_left h f

theorem same_of_eq (h : p = q) : Same w taps p q := by
  rw [Same, h, sub_self]
  exact dvd_zero _

theorem shift_lt (ht : taps < 2 ^ w) (h : r < 2 ^ w) : shift taps r < 2 ^ w := by
  have hr : r >>> 1 < 2 ^ w := (Nat.shiftRight_le r 1).trans_lt h
  unfold shift
  split
  · exact Nat.xor_lt_two_pow hr ht
  · exact hr

/-- A shift multiplies by `X`, modulo the generator. -/
theorem same_shift (hw : 0 < w) (h : r < 2 ^ w) :
    Same w taps (ofRegister w (shift taps r)) (X * ofRegister w r) := by
  rw [X_mul_ofRegister h hw, shift]
  split
  · rw [ofRegister_xor, Same, add_comm, add_sub_add_right_eq_sub]
    -- minus is plus
    rw [CharTwo.sub_eq_add, add_comm]
    exact dvd_refl _
  · rw [zero_add]
    exact same_of_eq rfl

theorem same_shift_iterate (hw : 0 < w) (ht : taps < 2 ^ w) (h : r < 2 ^ w) (n : ℕ) :
    Same w taps (ofRegister w ((shift taps)^[n] r)) (X ^ n * ofRegister w r) := by
  induction n generalizing r with
  | zero => exact same_of_eq (by simp)
  | succ n ih =>
    rw [Function.iterate_succ_apply, pow_succ, mul_assoc]
    exact (ih (shift_lt ht h)).trans ((same_shift hw h).mul_left _)

/-- Bits that are not yet at the end of the register are moved. -/
theorem X_pow_mul_ofRegister (hw : 0 < w) (n : ℕ) (h : m <<< n < 2 ^ w) :
    X ^ n * ofRegister w (m <<< n) = ofRegister w m := by
  induction n with
  | zero => simp
  | succ n ih =>
    have hle : m <<< n ≤ m <<< (n + 1) := by
      rw [Nat.shiftLeft_succ]
      omega
    have hbit : (m <<< (n + 1)).testBit 0 = false := by
      rw [Nat.testBit_shiftLeft]
      simp
    have hright : m <<< (n + 1) >>> 1 = m <<< n := by
      rw [Nat.shiftLeft_succ, Nat.shiftRight_one]
      omega
    rw [pow_succ, mul_assoc, X_mul_ofRegister h hw, hbit, if_neg Bool.false_ne_true, zero_add,
      hright, ih (hle.trans_lt h)]

/-! ## Bytes -/

theorem and_mask_eq_mod (a : ℕ) : a &&& 0xff = a % 256 := Nat.and_two_pow_sub_one_eq_mod a 8

/-- A register is its last byte and what is before it. -/
theorem xor_shift_byte (r : ℕ) : (r >>> 8) <<< 8 ^^^ (r &&& 0xff) = r := by
  refine Nat.eq_of_testBit_eq fun i => ?_
  rw [and_mask_eq_mod, Nat.testBit_xor, Nat.testBit_shiftLeft, Nat.testBit_shiftRight]
  have hmod := Nat.testBit_mod_two_pow r 8 i
  rw [show 2 ^ 8 = 256 by rfl] at hmod
  rw [hmod]
  by_cases hi : 8 ≤ i
  · simp [hi, not_lt.mpr hi, Nat.add_sub_cancel' hi]
  · simp [hi, not_le.mp hi]

theorem ofRegister_byte (hw : 8 ≤ w) (hc : a < 256) :
    X ^ 8 * ofRegister w a = X ^ w * ofRegister 8 a := by
  have hsub : Finset.range 8 ⊆ Finset.range w := Finset.range_subset_range.mpr hw
  have hhigh : ∀ i ∈ Finset.range w, i ∉ Finset.range 8 →
      (if a.testBit i then X ^ (w - 1 - i) else 0 : (ZMod 2)[X]) = 0 := by
    intro i _ hi
    have hle : 2 ^ 8 ≤ 2 ^ i :=
      Nat.pow_le_pow_right (by decide) (not_lt.mp (fun hc => hi (Finset.mem_range.mpr hc)))
    rw [Nat.testBit_lt_two_pow (hc.trans_le hle), if_neg Bool.false_ne_true]
  rw [ofRegister, ← Finset.sum_subset hsub hhigh, ofRegister, Finset.mul_sum, Finset.mul_sum]
  refine Finset.sum_congr rfl fun i hi => ?_
  have hi : i < 8 := Finset.mem_range.mp hi
  split
  · rw [← pow_add, ← pow_add]
    congr 1
    omega
  · rw [mul_zero, mul_zero]

/-- A byte goes into a register. -/
theorem same_update (hw : 8 ≤ w) (ht : taps < 2 ^ w)
    (htable : ∀ k < 256, table k = (shift taps)^[8] k) (h : r < 2 ^ w) (c : UInt8) :
    Same w taps (ofRegister w (update table r c))
      (X ^ 8 * ofRegister w r + X ^ w * ofRegister 8 c.toNat) := by
  have hw0 : 0 < w := by omega
  have hc : c.toNat < 256 := c.toNat_lt
  have hpow : (256 : ℕ) ≤ 2 ^ w := Nat.pow_le_pow_right (by decide : 0 < 2) hw
  have hk : (r ^^^ c.toNat) &&& 0xff < 256 := by
    rw [and_mask_eq_mod]
    exact Nat.mod_lt _ (by decide)
  have hhigh : (r >>> 8) <<< 8 < 2 ^ w := by
    rw [Nat.shiftRight_eq_div_pow, Nat.shiftLeft_eq]
    exact (Nat.div_mul_le_self r _).trans_lt h
  have hsplit : (r >>> 8) <<< 8 ^^^ ((r ^^^ c.toNat) &&& 0xff) = r ^^^ c.toNat := by
    rw [Nat.and_xor_distrib_right, ← Nat.xor_assoc, xor_shift_byte, and_mask_eq_mod,
      Nat.mod_eq_of_lt hc]
  rw [update, ofRegister_xor, htable _ hk, ← X_pow_mul_ofRegister hw0 8 hhigh,
    ← ofRegister_byte hw hc]
  refine ((same_of_eq rfl).add (same_shift_iterate hw0 ht (hk.trans_le hpow) 8)).trans
    (same_of_eq ?_)
  rw [← mul_add, ← mul_add, ← ofRegister_xor, ← ofRegister_xor, hsplit]

theorem update_lt (htable : ∀ k < 256, table k < 2 ^ w) (h : r < 2 ^ w) (c : UInt8) :
    update table r c < 2 ^ w := by
  refine Nat.xor_lt_two_pow ((Nat.shiftRight_le r 8).trans_lt h) (htable _ ?_)
  rw [and_mask_eq_mod]
  exact Nat.mod_lt _ (by decide)

theorem message_concat (data : List UInt8) (c : UInt8) :
    message (data ++ [c]) = message data * X ^ 8 + ofRegister 8 c.toNat := by
  rw [message, List.foldl_append]
  rfl

theorem dividend_concat (w init : ℕ) (data : List UInt8) (c : UInt8) :
    dividend w init (data ++ [c]) =
      X ^ 8 * dividend w init data + X ^ w * ofRegister 8 c.toNat := by
  rw [dividend, dividend, message_concat, List.length_append, List.length_singleton, Nat.mul_add,
    pow_add]
  ring

/-- A table of what becomes of a byte. -/
structure IsTable (w taps : ℕ) (table : ℕ → ℕ) : Prop where
  width : 8 ≤ w
  taps_lt : taps < 2 ^ w
  entry : ∀ k < 256, table k = (shift taps)^[8] k

theorem shift_iterate_lt (ht : taps < 2 ^ w) (h : r < 2 ^ w) (n : ℕ) :
    (shift taps)^[n] r < 2 ^ w := by
  induction n generalizing r with
  | zero => exact h
  | succ n ih => exact ih (shift_lt ht h)

theorem IsTable.entry_lt (h : IsTable w taps table) : ∀ k < 256, table k < 2 ^ w := by
  intro k hk
  have hpow : (256 : ℕ) ≤ 2 ^ w := Nat.pow_le_pow_right (by decide : 0 < 2) h.width
  rw [h.entry k hk]
  exact shift_iterate_lt h.taps_lt (hk.trans_le hpow) 8

/-- The pass over the bytes leaves a register for what is divided. -/
theorem IsTable.same_foldl (h : IsTable w taps table) (hinit : init < 2 ^ w) (data : List UInt8) :
    data.foldl (update table) init < 2 ^ w ∧
      Same w taps (ofRegister w (data.foldl (update table) init)) (dividend w init data) := by
  induction data using List.reverseRecOn with
  | nil => exact ⟨hinit, same_of_eq (by simp [dividend, message])⟩
  | append_singleton data c ih =>
    obtain ⟨hlt, hsame⟩ := ih
    rw [List.foldl_append, dividend_concat]
    refine ⟨update_lt h.entry_lt hlt c, ?_⟩
    exact (same_update h.width h.taps_lt h.entry hlt c).trans
      ((hsame.mul_left _).add (same_of_eq rfl))

theorem IsTable.ofRegister_foldl (h : IsTable w taps table) (hinit : init < 2 ^ w)
    (data : List UInt8) : ofRegister w (data.foldl (update table) init) =
      dividend w init data %ₘ generator w taps := by
  rw [← same_iff_mod.1 (h.same_foldl hinit data).2, eq_comm,
    modByMonic_eq_self_iff (monic_generator w taps), degree_generator]
  exact degree_ofRegister_lt w _

/-- The pass computes the remainder. -/
theorem IsTable.foldl_eq (h : IsTable w taps table) (hinit : init < 2 ^ w) (data : List UInt8) :
    data.foldl (update table) init = remainder w taps init data := by
  rw [remainder, ← h.ofRegister_foldl hinit, toRegister_ofRegister (h.same_foldl hinit data).1]

/-- Two messages have one check exactly if the generator divides the difference of what is
divided. -/
theorem IsTable.remainder_eq_iff (h : IsTable w taps table) (hinit : init < 2 ^ w)
    (data data' : List UInt8) : remainder w taps init data = remainder w taps init data' ↔
      generator w taps ∣ dividend w init data - dividend w init data' := by
  rw [← Same, same_iff_mod]
  refine ⟨fun he => ?_, fun he => congrArg (toRegister w) he⟩
  rw [← h.ofRegister_foldl hinit, ← h.ofRegister_foldl hinit, h.foldl_eq hinit, h.foldl_eq hinit, he]

end Ryu.Crc
