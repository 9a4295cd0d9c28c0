import Ryu.Lib.EndAround
import Ryu.Packet.Checksum

/-! # The checksum of RFC 1071

`checksum` adds words with the low byte first, takes the carries in at the end, and swaps the bytes
of the complement. A swap of bytes multiplies by 256 modulo 65535, so that this is the complement
of the sum of the words as they are on the wire, with each carry added around.
-/

namespace Ryu.Packet

open Bytes

/-- `carry_around_add`. -/
def carryAroundAdd (a b : ℕ) : ℕ :=
  let c := a + b
  c % 2 ^ 16 + c / 2 ^ 16

/-- The words of a buffer, the high byte first. An odd byte has a zero behind it. -/
def words : List UInt8 → List ℕ
  | [] => []
  | [a] => [256 * a.toNat]
  | a :: b :: data => (256 * a.toNat + b.toNat) :: words data

/-- The Internet checksum: the complement of the ones' complement sum of the words. -/
def internetChecksum (data : List UInt8) : ℕ := 65535 - (words data).foldl carryAroundAdd 0

/-- No carry is taken off by the mask behind the two folding steps. -/
def KeepsCarries (n : ℕ) : Prop := fold n = addCarry (2 ^ 16) (addCarry (2 ^ 16) n)

variable {data : List UInt8} {n : ℕ}

theorem word_lt (a b : UInt8) : 256 * a.toNat + b.toNat < 2 ^ 16 := by
  have ha := a.toNat_lt
  have hb := b.toNat_lt
  omega

theorem lt_of_mem_words {w : ℕ} (h : w ∈ words data) : w < 2 ^ 16 := by
  induction data using words.induct with
  | case1 => cases h
  | case2 a =>
    rw [List.mem_singleton.mp h]
    exact word_lt a 0
  | case3 a b data ih =>
    obtain rfl | h := List.mem_cons.mp h
    · exact word_lt a b
    · exact ih h

theorem wordSum_le (data : List UInt8) : wordSum data ≤ 65535 * ((data.length + 1) / 2) := by
  induction data using words.induct with
  | case1 => exact Nat.zero_le _
  | case2 a =>
    have ha := a.toNat_lt
    simp only [wordSum, List.length_singleton]
    omega
  | case3 a b data ih =>
    have hw := word_lt b a
    have hlen : (data.length + 1 + 1 + 1) / 2 = (data.length + 1) / 2 + 1 := by omega
    rw [wordSum, List.length_cons, List.length_cons, hlen]
    omega

/-- Times 256, the sum of the words with the low byte first is the one of those with the high byte
first. -/
theorem wordSum_modEq (data : List UInt8) :
    256 * wordSum data ≡ (words data).sum [MOD 2 ^ 16 - 1] := by
  induction data using words.induct with
  | case1 => exact .refl 0
  | case2 a => exact .refl (256 * a.toNat)
  | case3 a b data ih =>
    have hswap : 256 * (a.toNat + 256 * b.toNat) ≡ 256 * a.toNat + b.toNat [MOD 2 ^ 16 - 1] := by
      have heq : 256 * (a.toNat + 256 * b.toNat) =
          256 * a.toNat + b.toNat + b.toNat * (2 ^ 16 - 1) := by omega
      rw [heq]
      exact Nat.add_mul_modulus_modEq_iff.mpr (.refl _)
    rw [wordSum, words, List.sum_cons, Nat.mul_add]
    exact hswap.add ih

theorem wordSum_eq_zero_iff : wordSum data = 0 ↔ (words data).sum = 0 := by
  induction data using words.induct with
  | case1 => rfl
  | case2 a =>
    simp only [wordSum, words, List.sum_singleton]
    omega
  | case3 a b data ih =>
    simp only [wordSum, words, List.sum_cons, Nat.add_eq_zero_iff, ih]
    omega

theorem wordSum_lt (h : data.length ≤ 65535) : wordSum data < 2 ^ 31 := by
  have hle := wordSum_le data
  omega

theorem keepsCarries_of_lt (h : n < 2 ^ 32) : KeepsCarries n := by
  have hle := addCarry_add_two_le (m := 2 ^ 16) (n := n) (by omega)
  rw [KeepsCarries, ← Nat.mod_eq_of_lt (addCarry_lt hle)]
  simp only [fold, addCarry]
  omega

theorem ntohs_modEq (h : n < 2 ^ 16) : ntohs n ≡ 256 * n [MOD 2 ^ 16 - 1] := by
  have heq : 256 * n = ntohs n + n / 256 * (2 ^ 16 - 1) := by
    rw [ntohs]
    omega
  rw [heq]
  exact (Nat.add_mul_modulus_modEq_iff.mpr (.refl _)).symm

theorem ntohs_complement (h : n < 2 ^ 16) : ntohs (65535 - n) = 65535 - ntohs n := by
  rw [ntohs, ntohs]
  omega

theorem ntohs_lt (n : ℕ) : ntohs n < 2 ^ 16 := by
  rw [ntohs]
  omega

/-- With its bytes swapped, the folded sum is the one with the carries added around. -/
theorem ntohs_fold (h : wordSum data < 2 ^ 32) :
    ntohs (fold (wordSum data)) = (words data).foldl carryAroundAdd 0 := by
  have hfold : fold (wordSum data) ≡ wordSum data [MOD 2 ^ 16 - 1] := by
    rw [keepsCarries_of_lt h]
    exact (addCarry_modEq _ _).trans (addCarry_modEq _ _)
  have hzero : fold (wordSum data) = 0 ↔ wordSum data = 0 := by
    rw [keepsCarries_of_lt h, addCarry_eq_zero_iff, addCarry_eq_zero_iff]
  have hsum := foldl_around_modEq (m := 2 ^ 16) 0 (words data)
  rw [Nat.zero_add] at hsum
  have hlt := foldl_around_lt (m := 2 ^ 16) (s := 0) (l := words data) (by decide)
    fun _ h => lt_of_mem_words h
  refine digit_unique (m := 2 ^ 16) (ntohs_lt _) hlt ?_ ?_
  · calc ntohs (fold (wordSum data)) ≡ 256 * fold (wordSum data) [MOD 2 ^ 16 - 1] :=
          ntohs_modEq (fold_lt _)
      _ ≡ 256 * wordSum data [MOD 2 ^ 16 - 1] := hfold.mul_left 256
      _ ≡ (words data).sum [MOD 2 ^ 16 - 1] := wordSum_modEq data
      _ ≡ _ [MOD 2 ^ 16 - 1] := hsum.symm
  · have hzeros := foldl_around_eq_zero_iff (m := 2 ^ 16) (s := 0) (l := words data)
    rw [Nat.zero_add] at hzeros
    rw [ntohs_eq_zero_iff (fold_lt _), hzero, wordSum_eq_zero_iff]
    exact hzeros.symm

theorem checksum_eq_internetChecksum (h : wordSum data < 2 ^ 32) :
    checksum data = internetChecksum data := by
  rw [checksum_eq, ntohs_complement (fold_lt _), ntohs_fold h, internetChecksum]

/-- A message of no more than 65535 bytes has the Internet checksum, no carry is lost in it, and
with it in a field that was zero the checksum is zero. -/
theorem checksum_rfc1071 (data : List UInt8) (h : data.length ≤ 65535) :
    checksum data = internetChecksum data ∧ KeepsCarries (wordSum data) ∧
      ∀ a c : List UInt8, a.length % 2 = 0 → data = a ++ (toBytes 2 0 ++ c) →
        checksum (a ++ (toBytes 2 (checksum data) ++ c)) = 0 := by
  have hlt : wordSum data < 2 ^ 32 := (wordSum_lt h).trans (by decide)
  refine ⟨checksum_eq_internetChecksum hlt, keepsCarries_of_lt hlt, ?_⟩
  rintro a c ha rfl
  exact (checksum_filled_iff ha).mpr (folds_of_lt hlt)

theorem checksum_rfc1071_odd :
    checksum [0x45, 0x00, 0xff] = internetChecksum [0x45, 0x00, 0xff] ∧
      KeepsCarries (wordSum [0x45, 0x00, 0xff]) ∧
      ∀ a c : List UInt8, a.length % 2 = 0 → [0x45, 0x00, 0xff] = a ++ (toBytes 2 0 ++ c) →
        checksum (a ++ (toBytes 2 (checksum [0x45, 0x00, 0xff]) ++ c)) = 0 :=
  checksum_rfc1071 [0x45, 0x00, 0xff] (by decide)

end Ryu.Packet
