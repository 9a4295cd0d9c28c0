import Mathlib.Algebra.Order.Ring.Int
import Mathlib.Data.ZMod.Basic
import Ryu.Lib.Bytes
import Ryu.Lib.Fletcher
import Ryu.Lib.Python

/-! # Fletcher checksums

`packet_utils.fletcher_checksum` zeroes the two check bytes, takes both sums of the string in
blocks, each of which is reduced modulo 255 at its end, and finds the check bytes by a closed
formula. With them in their place both sums of the string vanish modulo 255.
-/

namespace Ryu.Packet

open Bytes

/-- `_MODX`. -/
def modx : ℕ := 4102

/-- The loop over the blocks of the data, up to its length. -/
def fletcherLoop (data : List UInt8) (length pos : ℕ) (c : ℕ × ℕ) : ℕ × ℕ :=
  if pos < length then
    let tlen := min (length - pos) modx
    let c := ((data.drop pos).take tlen).foldl (fun c d => (c.1 + d.toNat, c.2 + (c.1 + d.toNat))) c
    fletcherLoop data length (pos + tlen) (c.1 % 255, c.2 % 255)
  else c
termination_by length - pos
decreasing_by
  simp only [modx] at *
  omega

/-- The check bytes of two sums. -/
def checkBytes (length offset c0 c1 : ℤ) : ℤ × ℤ :=
  let x := ((length - offset - 1) * c0 - c1) % 255
  let x := if x ≤ 0 then x + 255 else x
  let y := 510 - c0 - x
  let y := if 255 < y then y - 255 else y
  (x, y)

/-- `data[i] = v`. -/
def setByte (data : List UInt8) (i : ℕ) (v : ℤ) : Except PyError (List UInt8) :=
  if data.length ≤ i then .error (.other "bytearray index out of range")
  else if v < 0 ∨ 255 < v then .error (.valueError "byte must be in range(0, 256)")
  else .ok (data.set i (UInt8.ofNat v.toNat))

/-- `fletcher_checksum`. -/
def fletcherChecksum (data : List UInt8) (offset : ℕ) : Except PyError ℤ :=
  let length := data.length
  let data := data.take offset ++ [0, 0] ++ data.drop (offset + 2)
  let c := fletcherLoop data length 0 (0, 0)
  let (x, y) := checkBytes length offset c.1 c.2
  match setByte data offset x with
  | .error e => .error e
  | .ok data => (setByte data (offset + 1) y).map fun _ => x * 2 ^ 8 + y % 2 ^ 8

/-- The numbers of a string. -/
def octets (data : List UInt8) : List ℕ := data.map UInt8.toNat

/-- Both Fletcher sums of a string vanish modulo 255. -/
def FletcherZero (data : List UInt8) : Prop :=
  (octets data).sum % 255 = 0 ∧ Fletcher.weighted (octets data) % 255 = 0

instance (data : List UInt8) : Decidable (FletcherZero data) :=
  inferInstanceAs (Decidable (_ ∧ _))

variable {data a b : List UInt8} {offset length pos : ℕ} {c : ℕ × ℕ} {c0 c1 x y : ℤ}

/-- Both sums as residues. -/
def residues (c : ℕ × ℕ) : ZMod 255 × ZMod 255 := (c.1, c.2)

/-- The numbers of a string as residues. -/
def residueList (data : List UInt8) : List (ZMod 255) := data.map fun d => (d.toNat : ZMod 255)

theorem residues_mod (c : ℕ × ℕ) : residues (c.1 % 255, c.2 % 255) = residues c := by
  simp only [residues]
  rw [ZMod.natCast_mod, ZMod.natCast_mod]

theorem residues_foldl (c : ℕ × ℕ) (data : List UInt8) :
    residues (data.foldl (fun c d => (c.1 + d.toNat, c.2 + (c.1 + d.toNat))) c) =
      (residueList data).foldl Fletcher.add (residues c) := by
  induction data generalizing c with
  | nil => rfl
  | cons d data ih =>
    have hstep : residues (c.1 + d.toNat, c.2 + (c.1 + d.toNat)) =
        Fletcher.add (residues c) (d.toNat : ZMod 255) := by
      simp [residues, Fletcher.add]
    rw [List.foldl_cons, ih, hstep]
    rfl

/-- However the data is cut into blocks, the loop leaves the sums of what is left of it. -/
theorem residues_fletcherLoop (data : List UInt8) (pos : ℕ) (c : ℕ × ℕ) :
    residues (fletcherLoop data data.length pos c) =
      (residueList (data.drop pos)).foldl Fletcher.add (residues c) := by
  fun_induction fletcherLoop data data.length pos c with
  | case1 pos c h tlen c' ih =>
    rw [ih, residues_mod, residues_foldl, ← List.foldl_append, residueList, residueList,
      ← List.map_append, ← List.drop_drop, List.take_append_drop]
    rfl
  | case2 pos c h =>
    rw [List.drop_eq_nil_of_le (not_lt.mp h)]
    rfl

theorem fletcherLoop_lt (h : pos < length) :
    (fletcherLoop data length pos c).1 < 255 ∧ (fletcherLoop data length pos c).2 < 255 := by
  fun_induction fletcherLoop data length pos c with
  | case1 pos c h tlen c' ih =>
    by_cases hend : pos + tlen < length
    · exact ih hend
    · rw [fletcherLoop, if_neg hend]
      exact ⟨Nat.mod_lt _ (by decide), Nat.mod_lt _ (by decide)⟩
  | case2 pos c hpos => exact absurd h hpos

/-- The check bytes are bytes other than zero, congruent to what makes both sums vanish. -/
theorem checkBytes_spec {n : ℤ} (h : 0 ≤ c0) (hlt : c0 < 255)
    (heq : checkBytes length offset c0 c1 = (x, y)) (hn : n = (length - offset - 1) * c0 - c1) :
    (0 < x ∧ x ≤ 255) ∧ (0 < y ∧ y ≤ 255) ∧ (n - x) % 255 = 0 ∧ (c0 + x + y) % 255 = 0 := by
  rw [checkBytes, ← hn] at heq
  obtain ⟨rfl, rfl⟩ := Prod.mk.inj heq
  split <;> split <;> omega

theorem cast_eq_of_emod {n m : ℤ} (h : (n - m) % 255 = 0) : (m : ZMod 255) = n := by
  have hzero := (ZMod.intCast_zmod_eq_zero_iff_dvd (n - m) 255).mpr (Int.dvd_of_emod_eq_zero h)
  rw [Int.cast_sub, sub_eq_zero] at hzero
  exact hzero.symm

theorem residueList_eq (data : List UInt8) :
    residueList data = (octets data).map (Nat.castRingHom (ZMod 255)) := by
  rw [residueList, octets, List.map_map]
  rfl

theorem fletcherZero_iff : FletcherZero data ↔
    (residueList data).sum = 0 ∧ Fletcher.weighted (residueList data) = 0 := by
  rw [residueList_eq, ← map_list_sum, ← Fletcher.map_weighted]
  simp only [Nat.coe_castRingHom, ZMod.natCast_eq_zero_iff, Nat.dvd_iff_mod_eq_zero]
  rfl

/-- With the check bytes in place of the zeros both sums vanish. -/
theorem fletcherZero_checkBytes {p q : UInt8} {n : ℕ}
    (hn : n = (a ++ [0, 0] ++ b).length)
    (hc : residues c = (residueList (a ++ [0, 0] ++ b)).foldl Fletcher.add (residues (0, 0)))
    (hx : ((n - a.length - 1) * c.1 - c.2 - (p.toNat : ℤ)) % 255 = 0)
    (hy : ((c.1 : ℤ) + p.toNat + q.toNat) % 255 = 0) : FletcherZero (a ++ [p, q] ++ b) := by
  have hsplit (p q : UInt8) : residueList (a ++ [p, q] ++ b) =
      residueList a ++ (p.toNat : ZMod 255) :: (q.toNat : ZMod 255) :: residueList b := by
    simp [residueList]
  have hzeros : ((0 : UInt8).toNat : ZMod 255) = 0 := rfl
  rw [Fletcher.foldl_add, hsplit, hzeros] at hc
  simp only [residues, Nat.cast_zero, zero_add, mul_zero] at hc
  obtain ⟨hc0, hc1⟩ := Prod.mk.inj hc
  have hpx := cast_eq_of_emod hx
  have hqy := cast_eq_of_emod (n := 0) (m := (c.1 : ℤ) + p.toNat + q.toNat) (by omega)
  have hlen : (n : ZMod 255) = a.length + 2 + b.length := by
    simp [hn]
    ring
  push_cast at hpx hqy
  rw [fletcherZero_iff, hsplit]
  refine Fletcher.sums_check ?_ ?_
  · rw [← hc0, ← hc1, hpx, hlen, residueList, List.length_map]
    ring
  · rw [← hc0]
    linear_combination hqy

theorem setByte_eq_ok {i : ℕ} {v : ℤ} (hi : i < data.length) (hv : 0 < v ∧ v ≤ 255) :
    setByte data i v = .ok (data.set i (UInt8.ofNat v.toNat)) := by
  rw [setByte, if_neg (by omega), if_neg (by omega)]

theorem toBytes_pair (x : ℕ) {y : ℕ} (hy : y ≤ 255) :
    toBytes 2 (x * 2 ^ 8 + y) = [UInt8.ofNat x, UInt8.ofNat y] := by
  have hhigh : (x * 256 + y) / 256 = x := by omega
  have hlow : UInt8.ofNat (x * 256 + y) = UInt8.ofNat y := by
    apply UInt8.toNat_inj.mp
    rw [UInt8.toNat_ofNat', UInt8.toNat_ofNat']
    omega
  simp [toBytes, hhigh, hlow]

/-- Written at an offset with two bytes left, the checksum makes both Fletcher sums of the string
vanish modulo 255, and neither of its bytes is zero. -/
theorem fletcherChecksum_verifies (data : List UInt8) (offset : ℕ)
    (h : offset + 2 ≤ data.length) :
    ∃ v : ℕ, fletcherChecksum data offset = .ok v ∧
      (1 ≤ v / 2 ^ 8 ∧ v / 2 ^ 8 ≤ 255) ∧ (1 ≤ v % 2 ^ 8 ∧ v % 2 ^ 8 ≤ 255) ∧
      FletcherZero (data.take offset ++ toBytes 2 v ++ data.drop (offset + 2)) := by
  have hdrop : (data.drop (offset + 2)).length = data.length - (offset + 2) := List.length_drop
  have htake : (data.take offset).length = offset := List.length_take_of_le (by omega)
  rw [fletcherChecksum]
  generalize hz : data.take offset ++ [0, 0] ++ data.drop (offset + 2) = zeroed
  have hlen : data.length = zeroed.length := by
    rw [← hz, List.length_append, List.length_append, htake, hdrop, List.length_cons,
      List.length_singleton]
    omega
  have hc := residues_fletcherLoop zeroed 0 (0, 0)
  have hlt0 : (fletcherLoop zeroed data.length 0 (0, 0)).1 < 255 := (fletcherLoop_lt (by omega)).1
  rw [← hlen] at hc
  generalize fletcherLoop zeroed data.length 0 (0, 0) = c at hc hlt0 ⊢
  generalize hcheck : checkBytes data.length offset c.1 c.2 = xy
  obtain ⟨x, y⟩ := xy
  obtain ⟨hx, hy, hxmod, hymod⟩ := checkBytes_spec (by omega) (by omega) hcheck rfl
  -- Both check bytes are bytes, so that they are set without an exception.
  have hset : setByte zeroed offset x = .ok (zeroed.set offset (UInt8.ofNat x.toNat)) :=
    setByte_eq_ok (by omega) hx
  have hset' : setByte (zeroed.set offset (UInt8.ofNat x.toNat)) (offset + 1) y = .ok _ :=
    setByte_eq_ok (by rw [List.length_set]; omega) hy
  refine ⟨x.toNat * 2 ^ 8 + y.toNat, ?_, by omega, by omega, ?_⟩
  · simp only [hset, hset', Except.map, Except.ok.injEq]
    push_cast
    omega
  · rw [toBytes_pair _ (by omega)]
    refine fletcherZero_checkBytes (c := c) (n := data.length) (by rw [hz, hlen]) ?_ ?_ ?_
    · rw [hz]
      exact hc
    · rw [htake, UInt8.toNat_ofNat', Nat.mod_eq_of_lt (by omega), Int.toNat_of_nonneg (by omega)]
      exact hxmod
    · rw [UInt8.toNat_ofNat', UInt8.toNat_ofNat', Nat.mod_eq_of_lt (by omega),
        Nat.mod_eq_of_lt (by omega), Int.toNat_of_nonneg (by omega),
        Int.toNat_of_nonneg (by omega)]
      exact hymod

theorem fletcherChecksum_verifies_last :
    ∃ v : ℕ, fletcherChecksum [1, 2, 3, 0, 0] 3 = .ok v ∧
      (1 ≤ v / 2 ^ 8 ∧ v / 2 ^ 8 ≤ 255) ∧ (1 ≤ v % 2 ^ 8 ∧ v % 2 ^ 8 ≤ 255) ∧
      FletcherZero (([1, 2, 3, 0, 0] : List UInt8).take 3 ++ toBytes 2 v ++
        ([1, 2, 3, 0, 0] : List UInt8).drop (3 + 2)) :=
  fletcherChecksum_verifies [1, 2, 3, 0, 0] 3 (by decide)

end Ryu.Packet
