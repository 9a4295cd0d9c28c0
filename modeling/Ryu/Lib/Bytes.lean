import Mathlib.Algebra.Ring.Nat
import Mathlib.Tactic.IntervalCases
import Mathlib.Tactic.Linarith
import Mathlib.Tactic.Ring

/-! # Big-endian bytes

Numbers as bytes, the most significant first. The first bytes of a number are its quotient,
and bytes behind another number are added to its multiple.
-/

namespace Ryu.Bytes

/-- The last `size` bytes of a number. -/
def toBytes : ℕ → ℕ → List UInt8
  | 0, _ => []
  | size + 1, v => UInt8.ofNat (v / 256 ^ size) :: toBytes size v

def ofBytes (b : List UInt8) : ℕ := b.foldl (fun acc x => 256 * acc + x.toNat) 0

/-- Zeros behind, up to a length. -/
def padRight (b : List UInt8) (size : ℕ) : List UInt8 := b ++ List.replicate (size - b.length) 0

variable {size m v i : ℕ} {b : List UInt8}

@[simp] theorem length_toBytes (size v : ℕ) : (toBytes size v).length = size := by
  induction size with
  | zero => rfl
  | succ size ih => simp [toBytes, ih]

theorem foldl_bytes (b : List UInt8) (acc : ℕ) :
    b.foldl (fun acc x => 256 * acc + x.toNat) acc = acc * 256 ^ b.length + ofBytes b := by
  induction b generalizing acc with
  | nil => simp [ofBytes]
  | cons x b ih =>
    rw [ofBytes, List.foldl_cons, List.foldl_cons, ih, ih, List.length_cons, pow_succ]
    ring

theorem ofBytes_append (a b : List UInt8) :
    ofBytes (a ++ b) = ofBytes a * 256 ^ b.length + ofBytes b := by
  rw [ofBytes, List.foldl_append, foldl_bytes]
  rfl

theorem ofBytes_singleton (x : UInt8) : ofBytes [x] = x.toNat := by
  simp [ofBytes]

theorem ofBytes_cons (x : UInt8) (b : List UInt8) :
    ofBytes (x :: b) = x.toNat * 256 ^ b.length + ofBytes b := by
  rw [← List.singleton_append, ofBytes_append, ofBytes_singleton]

theorem ofBytes_lt (b : List UInt8) : ofBytes b < 256 ^ b.length := by
  induction b with
  | nil => simp [ofBytes]
  | cons x b ih =>
    rw [ofBytes_cons, List.length_cons, pow_succ]
    have hx : x.toNat < 256 := x.toNat_lt
    have hmul : x.toNat * 256 ^ b.length ≤ 255 * 256 ^ b.length :=
      Nat.mul_le_mul_right _ (by omega)
    omega

theorem ofBytes_toBytes (size v : ℕ) : ofBytes (toBytes size v) = v % 256 ^ size := by
  induction size with
  | zero => simp [toBytes, ofBytes, Nat.mod_one]
  | succ size ih =>
    have hx : (UInt8.ofNat (v / 256 ^ size)).toNat = v / 256 ^ size % 256 := UInt8.toNat_ofNat'
    rw [toBytes, ofBytes_cons, length_toBytes, ih, hx, pow_succ, Nat.mod_mul, Nat.mul_comm,
      Nat.add_comm]

theorem toBytes_ofBytes (b : List UInt8) : toBytes b.length (ofBytes b) = b := by
  induction b with
  | nil => rfl
  | cons x b ih =>
    have hlt := ofBytes_lt b
    have hdiv : (x.toNat * 256 ^ b.length + ofBytes b) / 256 ^ b.length = x.toNat := by
      rw [Nat.mul_comm, Nat.mul_add_div (Nat.pow_pos (by decide)), Nat.div_eq_of_lt hlt,
        Nat.add_zero]
    have hmod : ∀ m ≤ b.length, toBytes m (x.toNat * 256 ^ b.length + ofBytes b) =
        toBytes m (ofBytes b) := by
      intro m
      induction m with
      | zero => exact fun _ => rfl
      | succ m ih =>
        intro hm
        obtain ⟨k, hk⟩ := Nat.exists_eq_add_of_le hm
        have hpow : x.toNat * 256 ^ b.length = 256 ^ m * (256 * (x.toNat * 256 ^ k)) := by
          rw [hk, pow_add, pow_add]
          ring
        have hsame : UInt8.ofNat ((256 ^ m * (256 * (x.toNat * 256 ^ k)) + ofBytes b) / 256 ^ m) =
            UInt8.ofNat (ofBytes b / 256 ^ m) := by
          apply UInt8.toNat.inj
          rw [UInt8.toNat_ofNat', UInt8.toNat_ofNat', Nat.mul_add_div (Nat.pow_pos (by decide))]
          omega
        rw [toBytes, toBytes, ih (by omega), hpow, hsame]
    rw [ofBytes_cons, List.length_cons, toBytes, hdiv, hmod _ le_rfl, ih, UInt8.ofNat_toNat]

theorem take_toBytes (h : m ≤ size) (v : ℕ) :
    (toBytes size v).take m = toBytes m (v / 256 ^ (size - m)) := by
  induction size generalizing m with
  | zero =>
    obtain rfl : m = 0 := by omega
    rfl
  | succ size ih =>
    cases m with
    | zero => rfl
    | succ m =>
      have hsize : size - m + m = size := by omega
      rw [toBytes, toBytes, List.take_succ_cons, ih (by omega), Nat.add_sub_add_right,
        Nat.div_div_eq_div_mul, ← pow_add, hsize]

theorem drop_toBytes (size m v : ℕ) : (toBytes size v).drop m = toBytes (size - m) v := by
  induction size generalizing m with
  | zero => simp [toBytes]
  | succ size ih =>
    cases m with
    | zero => rfl
    | succ m => rw [toBytes, List.drop_succ_cons, ih, Nat.add_sub_add_right]

theorem getElem?_toBytes (h : i < size) (v : ℕ) :
    (toBytes size v)[i]? = some (UInt8.ofNat (v / 256 ^ (size - 1 - i))) := by
  induction size generalizing i with
  | zero => omega
  | succ size ih =>
    cases i with
    | zero => simp [toBytes]
    | succ i =>
      have hs : size + 1 - 1 - (i + 1) = size - 1 - i := by omega
      rw [toBytes, List.getElem?_cons_succ, ih (by omega), hs]

theorem ofBytes_zeros (n : ℕ) : ofBytes (List.replicate n 0) = 0 := by
  induction n with
  | zero => rfl
  | succ n ih => simp [List.replicate_succ, ofBytes_cons, ih]

theorem ofBytes_padRight (b : List UInt8) (size : ℕ) :
    ofBytes (padRight b size) = ofBytes b * 256 ^ (size - b.length) := by
  rw [padRight, ofBytes_append, ofBytes_zeros, List.length_replicate, Nat.add_zero]

theorem ofBytes_padRight_lt (h : b.length ≤ size) : ofBytes (padRight b size) < 256 ^ size := by
  have hlt := ofBytes_lt (padRight b size)
  have hlen : (padRight b size).length = size := by
    rw [padRight, List.length_append, List.length_replicate]
    omega
  rwa [hlen] at hlt

/-- The mask `0xff00 >> r` keeps the first `r` bits of a byte. -/
theorem and_mask {x r : ℕ} (hx : x < 256) (hr : r < 8) :
    x &&& (0xff00 >>> r) = x / 2 ^ (8 - r) * 2 ^ (8 - r) := by
  revert hr r
  have h : ∀ x < 256, ∀ r < 8, x &&& (0xff00 >>> r) = x / 2 ^ (8 - r) * 2 ^ (8 - r) := by
    decide +kernel
  exact fun {r} hr => h x hx r hr

theorem pow_byte (n : ℕ) : 256 ^ n = 2 ^ (8 * n) := by
  rw [pow_mul, show 2 ^ 8 = 256 from rfl]

theorem ofBytes_take (h : m ≤ size) (hv : v < 256 ^ size) :
    ofBytes ((toBytes size v).take m) = v / 256 ^ (size - m) := by
  rw [take_toBytes h, ofBytes_toBytes]
  apply Nat.mod_eq_of_lt
  rwa [Nat.div_lt_iff_lt_mul (Nat.pow_pos (by decide)), ← pow_add, Nat.add_sub_cancel' h]

theorem length_take (h : m ≤ size) (v : ℕ) : ((toBytes size v).take m).length = m := by
  rw [List.length_take, length_toBytes, Nat.min_eq_left h]

/-- The first bytes of a number, with zeros for the others. -/
theorem ofBytes_pad_take (h : m ≤ size) (hv : v < 256 ^ size) :
    ofBytes (padRight ((toBytes size v).take m) size) =
      v / 2 ^ (8 * size - 8 * m) * 2 ^ (8 * size - 8 * m) := by
  have hpow : (256 : ℕ) ^ (size - m) = 2 ^ (8 * size - 8 * m) := by
    rw [← Nat.mul_sub, pow_byte]
  rw [ofBytes_padRight, length_take h, ofBytes_take h hv, hpow]

theorem byte_floor {w j : ℕ} (hj : j ≤ 8) :
    w / 256 * 256 + w % 256 / 2 ^ j * 2 ^ j = w / 2 ^ j * 2 ^ j := by
  interval_cases j <;> omega

/-- The first bytes and some bits of the next one, with zeros for the rest. -/
theorem ofBytes_pad_mask {r : ℕ} (h : m < size) (hv : v < 256 ^ size) (hr : r < 8) {last : UInt8}
    (hl : (toBytes size v)[m]? = some last) :
    ofBytes (padRight ((toBytes size v).take m ++
        [UInt8.ofNat (last.toNat &&& (0xff00 >>> r))]) size) =
      v / 2 ^ (8 * size - (8 * m + r)) * 2 ^ (8 * size - (8 * m + r)) := by
  obtain ⟨a, rfl⟩ : ∃ a, size = m + 1 + a := ⟨size - (m + 1), by omega⟩
  have hexp : 8 * (m + 1 + a) - (8 * m + r) = 8 * a + (8 - r) := by omega
  have ha : m + 1 + a - 1 - m = a := by omega
  have ha' : m + 1 + a - m = a + 1 := by omega
  have ha'' : m + 1 + a - (m + 1) = a := by omega
  rw [getElem?_toBytes h, ha] at hl
  obtain rfl := Option.some.inj hl
  have hlast : (UInt8.ofNat (v / 256 ^ a)).toNat = v / 256 ^ a % 256 := UInt8.toNat_ofNat'
  have hlt : v / 256 ^ a % 256 < 256 := Nat.mod_lt _ (by decide)
  have hfloor : v / 256 ^ a % 256 / 2 ^ (8 - r) * 2 ^ (8 - r) < 256 :=
    lt_of_le_of_lt (Nat.div_mul_le_self _ _) hlt
  have hmask : (UInt8.ofNat ((UInt8.ofNat (v / 256 ^ a)).toNat &&& (0xff00 >>> r))).toNat =
      v / 256 ^ a % 256 / 2 ^ (8 - r) * 2 ^ (8 - r) := by
    rw [hlast, and_mask hlt hr, UInt8.toNat_ofNat', Nat.mod_eq_of_lt hfloor]
  have hdiv : v / 256 ^ (a + 1) = v / 256 ^ a / 256 := by
    rw [pow_succ, Nat.div_div_eq_div_mul]
  have hpow : (2 : ℕ) ^ (8 * a + (8 - r)) = 256 ^ a * 2 ^ (8 - r) := by
    rw [pow_add, pow_byte]
  rw [ofBytes_padRight, ofBytes_append, ofBytes_take (by omega) hv, ofBytes_singleton, hmask, ha',
    hdiv, List.length_append, length_take (by omega), List.length_singleton, ha'', hexp, hpow,
    ← Nat.div_div_eq_div_mul, pow_one, byte_floor (by omega)]
  ring

end Ryu.Bytes
